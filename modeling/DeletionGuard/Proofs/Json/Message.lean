import DeletionGuard.Proofs.Json.Kept
import DeletionGuard.Proofs.Text.Lacks

/-!
# What faults say

The message of a fault may quote a text of the document. It is quoted with its control characters
escaped, and all else that a message says are numbers and the words of the reader that fails.
-/

namespace DeletionGuard.Json

open Text (Lacks IsControl)

/-! ### The causes for which readers fail -/

theorem Cause.speaks_of_isPlain {cause : Cause} (h : cause.isPlain = true) (W : String → Prop) :
    cause.Speaks W := by
  cases cause with
  | invalidType found expected => cases h
  | duplicateField name => cases h
  | _ => trivial

theorem Value.IsBuilt.speaks_of_error {W : String → Prop} {α : Type} {v : Value α}
    (h : v.IsBuilt W) {bytes : List UInt8} {f : Fault} (hdocument : v.document bytes = .error f) :
    f.cause.Speaks W := by
  rcases h.whole.cause_of_error (document_eq_error_iff.1 hdocument) with hplain | hspeaks
  · exact Cause.speaks_of_isPlain hplain W
  · exact hspeaks

/-! ### Messages -/

section

variable {c : Char} (hc : IsControl c)
include hc

theorem lacks_layoutText (l : NumberLayout) (negative : Bool) (x : Binary64) :
    Lacks c (l.text negative x) := by
  have hdigits (ds : List Nat) : Lacks c (NumberLayout.digitText ds) := by
    apply Lacks.of_forall_le hc
    rw [NumberLayout.digitText, String.toList_ofList]
    intro d hd
    obtain ⟨n, -, rfl⟩ := List.mem_map.1 hd
    exact Text.le_toNat_digitChar n
  have hzeros (n : Nat) : Lacks c (NumberLayout.zeros n) := by
    apply Lacks.of_forall_le hc
    rw [NumberLayout.zeros, String.toList_ofList]
    intro d hd
    rw [List.eq_of_mem_replicate hd]
    decide
  have hpoint : Lacks c "." := .of_all hc (by decide)
  have hpositional (d : Decimal) : Lacks c (NumberLayout.positionalText d) := by
    unfold NumberLayout.positionalText
    dsimp only
    split
    · exact .append (.append (.of_all hc (by decide)) (hzeros _)) (hdigits _)
    · split
      · exact .append (.append (hdigits _) (hzeros _)) (.of_all hc (by decide))
      · exact .append (.append (hdigits _) hpoint) (hdigits _)
  have hexponent (d : Decimal) : Lacks c (NumberLayout.exponentText d) := by
    unfold NumberLayout.exponentText
    refine .append (.append (.append (hdigits _) ?_) ?_) (.ofNat hc _)
    · split
      · exact .of_all hc (by decide)
      · exact .append hpoint (hdigits _)
    · split <;> exact .of_all hc (by decide)
  unfold NumberLayout.text
  refine .append ?_ ?_
  · split <;> exact .of_all hc (by decide)
  · split
    · exact hpositional _
    · exact hexponent _

theorem lacks_toString (n : Int) : Lacks c (toString n) := by
  cases n with
  | ofNat n => exact .ofNat hc n
  | negSucc n => exact .append (.of_all hc (by decide)) (.ofNat hc (n + 1))

theorem Found.lacks_phrase (f : Found) : Lacks c f.phrase := by
  have hmark : Lacks c "`" := .of_all hc (by decide)
  cases f with
  | null => exact .of_all hc (by decide)
  | boolean b => cases b <;> exact .of_all hc (by decide)
  | number n =>
    cases n with
    | integer n =>
      exact .append (.append (.of_all hc (by decide)) (lacks_toString hc n)) hmark
    | real negative x =>
      exact .append (.append (.of_all hc (by decide)) (lacks_layoutText hc _ _ _)) hmark
  | text s => exact .append (.of_all hc (by decide)) (Text.lacks_quoteWith hc false s)
  | list => exact .of_all hc (by decide)
  | object => exact .of_all hc (by decide)

/-- There is no control character in what is said of a cause if there is none in the reader's own
words. -/
theorem Cause.lacks_message {W : String → Prop} (hW : ∀ w, W w → Lacks c w) {cause : Cause}
    (h : cause.Speaks W) : Lacks c cause.message := by
  cases cause with
  | invalidType found expected =>
    exact .append (.append (.append (.of_all hc (by decide)) (found.lacks_phrase hc))
      (.of_all hc (by decide))) (hW expected h)
  | duplicateField name =>
    exact .append (.append (.of_all hc (by decide)) (hW name h))
      (.of_all hc (by decide))
  | endOfInput inside => cases inside <;> exact .of_all hc (by decide)
  | _ => exact .of_all hc (by decide)

theorem LocatedFault.lacks_message {f : LocatedFault} (h : Lacks c f.cause.message) :
    Lacks c f.message := by
  refine .append (.append (.append (.append h ?_) (.ofNat hc _)) ?_) (.ofNat hc _)
  · exact .of_all hc (by decide)
  · exact .of_all hc (by decide)

end

end DeletionGuard.Json
