import DeletionGuard.Text.Quoted
import Mathlib.Data.String.Basic

/-!
# Texts without a character

Numbers have no control characters in them, and neither has a quoted text, whatever is quoted.
-/

namespace DeletionGuard.Text

/-- A character does not occur in a text. -/
def Lacks (c : Char) (text : String) : Prop :=
  c ∉ text.toList

instance (c : Char) (text : String) : Decidable (Lacks c text) :=
  inferInstanceAs (Decidable (c ∉ text.toList))

/-- The characters below the space. -/
def IsControl (c : Char) : Prop :=
  c.toNat < 0x20

instance (c : Char) : Decidable (IsControl c) :=
  inferInstanceAs (Decidable (c.toNat < 0x20))

theorem IsControl.isInvisible {c : Char} (h : IsControl c) : isInvisible c = true := by
  have hall : ∀ n < 0x20, Text.isInvisible (Char.ofNat n) = true := by decide
  have hc := hall c.toNat h
  rwa [Char.ofNat_toNat] at hc

namespace Lacks

variable {c : Char} {s t : String}

theorem append (hs : Lacks c s) (ht : Lacks c t) : Lacks c (s ++ t) := by
  rw [Lacks, String.toList_append, List.mem_append, not_or]
  exact ⟨hs, ht⟩

theorem ite {C : Prop} [Decidable C] (hs : C → Lacks c s) (ht : ¬C → Lacks c t) :
    Lacks c (if C then s else t) := by
  by_cases hC : C
  · rw [if_pos hC]
    exact hs hC
  · rw [if_neg hC]
    exact ht hC

theorem join {ts : List String} (h : ∀ t ∈ ts, Lacks c t) : Lacks c (String.join ts) := by
  rw [Lacks, String.toList_join, List.mem_flatMap]
  rintro ⟨t, ht, hmem⟩
  exact h t ht hmem

theorem intercalate {separator : String} {ts : List String} (hs : Lacks c separator)
    (h : ∀ t ∈ ts, Lacks c t) : Lacks c (separator.intercalate ts) := by
  induction ts with
  | nil => exact List.not_mem_nil
  | cons t ts ih =>
    have hrest := ih fun u hu => h u (List.mem_cons_of_mem t hu)
    have ht := h t List.mem_cons_self
    cases ts with
    | nil => rwa [String.intercalate_singleton]
    | cons u ts =>
      rw [String.intercalate_cons_cons]
      exact append (append ht hs) hrest

/-- A text of characters from the space on has no control characters. -/
theorem of_forall_le (hc : IsControl c) (h : ∀ d ∈ s.toList, 0x20 ≤ d.toNat) : Lacks c s :=
  fun hmem => Nat.not_lt.2 (h c hmem) hc

theorem of_all (hc : IsControl c) (h : s.toList.all (0x20 ≤ ·.toNat)) : Lacks c s :=
  .of_forall_le hc fun d hd => of_decide_eq_true (List.all_eq_true.1 h d hd)

theorem ofNat (hc : IsControl c) (n : Nat) : Lacks c (toString n) := by
  intro hmem
  rw [Nat.toString_eq_ofList_toDigits, String.toList_ofList] at hmem
  have hdigit := Nat.isDigit_of_mem_toDigits (by decide) (by decide) hmem
  rw [Char.isDigit_iff_toNat] at hdigit
  have hlt : c.toNat < 0x20 := hc
  have hzero : '0'.toNat = 0x30 := rfl
  omega

end Lacks

theorem le_toNat_digitChar (n : Nat) : 0x20 ≤ n.digitChar.toNat := by
  rcases Nat.lt_or_ge n 16 with hlt | hge
  · exact (by decide : ∀ m < 16, 0x20 ≤ m.digitChar.toNat) n hlt
  · have hstar : n.digitChar = '*' := by
      simp (disch := omega) only [Nat.digitChar, if_neg]
    rw [hstar]
    decide

theorem le_toNat_of_mem_toDigits {b : Nat} (hb : 1 < b) (n : Nat) :
    ∀ d ∈ b.toDigits n, 0x20 ≤ d.toNat := by
  induction n using Nat.strongRecOn with
  | ind n ih =>
    rcases Nat.lt_or_ge n b with hlt | hge
    · rw [Nat.toDigits_of_lt_base hlt, List.forall_mem_singleton]
      exact le_toNat_digitChar n
    · rw [Nat.toDigits_of_base_le hb hge, List.forall_mem_append, List.forall_mem_singleton]
      exact ⟨ih _ (Nat.div_lt_self (by omega) hb), le_toNat_digitChar _⟩

section

variable {c : Char} (hc : IsControl c)
include hc

theorem lacks_escapeCodePoint (d : Char) : Lacks c (escapeCodePoint d) := by
  have hhex : Lacks c (hex d.toNat) := by
    apply Lacks.of_forall_le hc
    rw [hex, String.toList_ofList]
    exact le_toNat_of_mem_toDigits (by decide) _
  refine .append (.append ?_ hhex) ?_
  · exact .of_all hc (by decide)
  · exact .of_all hc (by decide)

theorem lacks_escapeChar (apostrophe : Bool) (d : Char) : Lacks c (escapeChar apostrophe d) := by
  have hshown : isInvisible d ≠ true → Lacks c d.toString := by
    intro hvisible hmem
    obtain rfl : c = d := by simpa using hmem
    exact hvisible hc.isInvisible
  rw [escapeChar]
  iterate 7 refine .ite (fun _ => .of_all hc (by decide)) fun _ => ?_
  exact .ite (fun _ => lacks_escapeCodePoint hc d) hshown

theorem lacks_quoteWith (apostrophe : Bool) (s : String) : Lacks c (quoteWith apostrophe s) := by
  have hchars : Lacks c (String.join (s.toList.map (escapeChar apostrophe))) := by
    refine .join fun t ht => ?_
    obtain ⟨d, -, rfl⟩ := List.mem_map.1 ht
    exact lacks_escapeChar hc apostrophe d
  refine .append (.append ?_ hchars) ?_
  · exact .of_all hc (by decide)
  · exact .of_all hc (by decide)

end

end DeletionGuard.Text
