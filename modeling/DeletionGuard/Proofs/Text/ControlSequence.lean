import DeletionGuard.Proofs.Text.Lacks
import DeletionGuard.Proofs.Text.Split
import DeletionGuard.Text.ControlSequence

/-!
# Texts without control sequences

Every control sequence begins with the escape character. A text without that character keeps what
is shown of it when it is stripped, and the end of its line with it. Quoted texts are such texts,
whatever is quoted.
-/

namespace DeletionGuard

namespace ControlSequence

/-- The character that every sequence begins with. -/
def opener : Char := Char.ofNat 0x1B

/-- No control sequence begins in a text. -/
def IsFree (text : String) : Prop :=
  opener ∉ text.toList

instance (text : String) : Decidable (IsFree text) :=
  inferInstanceAs (Decidable (opener ∉ text.toList))

theorem next_ground {c : Char} (h : c ≠ opener) : ControlStage.next .ground c = .ground := by
  have hn : c.toNat ≠ 0x1B := fun hn => h (Char.toNat_inj.1 hn)
  rw [ControlStage.next]
  simp [hn, ControlStage.goOn]

theorem stripFrom_ground (resumed showing : Bool) {cs : List Char} (h : opener ∉ cs) :
    stripFrom resumed .ground showing cs = cs.filter ControlStage.ground.shows := by
  induction cs generalizing showing with
  | nil => rfl
  | cons c cs ih =>
    obtain ⟨hc, hcs⟩ := not_or.1 (mt List.mem_cons.2 h)
    rw [stripFrom, ite_self]
    by_cases hshows : ControlStage.ground.shows c = true
    · rw [if_pos hshows, ite_self, ih true hcs, List.filter_cons_of_pos hshows]
    · rw [if_neg hshows, next_ground (Ne.symm hc), ih false hcs, List.filter_cons_of_neg hshows]

theorem toList_strip (resumed : Bool) {text : String} (h : IsFree text) :
    (strip resumed text).toList = text.toList.filter ControlStage.ground.shows := by
  rw [strip, String.toList_ofList, stripFrom_ground resumed false h]

/-- The end of a line is shown. -/
theorem strip_line (resumed : Bool) {text : String} (h : IsFree (text ++ "\n")) :
    ∃ shown, strip resumed (text ++ "\n") = shown ++ "\n" := by
  refine ⟨String.ofList (text.toList.filter ControlStage.ground.shows), String.toList_inj.1 ?_⟩
  have hend : "\n".toList.filter ControlStage.ground.shows = "\n".toList := by decide
  rw [toList_strip resumed h, String.toList_append, List.filter_append, hend, String.toList_append]
  simp only [String.toList_ofList]

namespace IsFree

theorem append {s t : String} (hs : IsFree s) (ht : IsFree t) : IsFree (s ++ t) :=
  Text.Lacks.append hs ht

theorem intercalate {separator : String} {ts : List String} (hs : IsFree separator)
    (h : ∀ t ∈ ts, IsFree t) : IsFree (separator.intercalate ts) :=
  Text.Lacks.intercalate hs h

theorem ofNat (n : Nat) : IsFree (toString n) :=
  Text.Lacks.ofNat (by decide) n

end IsFree

end ControlSequence

theorem Text.isFree_quoteWith (apostrophe : Bool) (s : String) :
    ControlSequence.IsFree (quoteWith apostrophe s) :=
  lacks_quoteWith (by decide) apostrophe s

end DeletionGuard
