import Mathlib.Data.List.Induction
import DeletionGuard.Text.Position

/-!
# Places as line and column

The line of a place counts the line ends before it and the column the bytes behind the last of
them. So a place in a text is that of one byte index only.
-/

namespace DeletionGuard.Position

/-- The bytes of a text behind its last line end. -/
def lastLine (bytes : List UInt8) : List UInt8 :=
  (bytes.reverse.takeWhile (· ≠ 0x0A)).reverse

/-- The place of the byte with index `i`. Its line counts line ends from 1 on, and its column the
bytes since the last one. -/
def IsAt (p : Position) (bytes : List UInt8) (i : Nat) : Prop :=
  p.line = 1 + (bytes.take i).count 0x0A ∧ p.column = (lastLine (bytes.take i)).length

variable {bytes : List UInt8} {i j : Nat}

theorem count_append_of_not_mem {before line : List UInt8} (h : 0x0A ∉ line) :
    (before ++ line).count 0x0A = before.count 0x0A := by
  rw [List.count_append, List.count_eq_zero_of_not_mem h, Nat.add_zero]

theorem lastLine_append {before line : List UInt8} (h : 0x0A ∉ line) :
    lastLine (before ++ line) = lastLine before ++ line := by
  have hline : ∀ b ∈ line.reverse, decide (b ≠ 0x0A) = true := by
    intro b hb
    have hne : b ≠ 0x0A := by
      rintro rfl
      exact h (List.mem_reverse.1 hb)
    simpa using hne
  rw [lastLine, lastLine, List.reverse_append, List.takeWhile_append_of_pos hline]
  simp

theorem lastLine_concat (before : List UInt8) : lastLine (before ++ [0x0A]) = [] := by
  simp [lastLine]

theorem foldl_after (bytes : List UInt8) :
    bytes.foldl after start = ⟨1 + bytes.count 0x0A, (lastLine bytes).length⟩ := by
  induction bytes using List.reverseRecOn with
  | nil => rfl
  | append_singleton before b ih =>
    rw [List.foldl_append, ih, List.foldl_cons, List.foldl_nil, after]
    by_cases hb : b = 0x0A
    · subst hb
      rw [if_pos rfl, lastLine_concat, List.count_append]
      rfl
    · have hnot : (0x0A : UInt8) ∉ [b] := by
        rw [List.mem_singleton]
        exact fun h => hb h.symm
      rw [if_neg hb, count_append_of_not_mem hnot, lastLine_append hnot, List.length_append]
      rfl

theorem isAt_ofIndex (bytes : List UInt8) (i : Nat) : (ofIndex bytes i).IsAt bytes i := by
  rw [IsAt, ofIndex, foldl_after]
  exact ⟨rfl, rfl⟩

/-- More bytes lead to another place. -/
theorem eq_nil_of_place_eq {before more : List UInt8}
    (hcount : (before ++ more).count 0x0A = before.count 0x0A)
    (hlength : (lastLine (before ++ more)).length = (lastLine before).length) : more = [] := by
  have hnot : (0x0A : UInt8) ∉ more := by
    rw [List.count_append] at hcount
    exact List.count_eq_zero.1 (by omega)
  rw [lastLine_append hnot, List.length_append] at hlength
  exact List.eq_nil_of_length_eq_zero (by omega)

theorem le_of_isAt {p : Position} (hp : p.IsAt bytes i) (hp' : p.IsAt bytes j)
    (hj : j ≤ bytes.length) : j ≤ i := by
  by_contra hlt
  have hsplit : bytes.take j = bytes.take i ++ (bytes.take j).drop i := by
    have htake : bytes.take i = (bytes.take j).take i := by
      rw [List.take_take, Nat.min_eq_left (by omega)]
    rw [htake, List.take_append_drop]
  have hmore : (bytes.take j).drop i = [] := by
    refine @eq_nil_of_place_eq (bytes.take i) _ ?_ ?_
    · rw [← hsplit]
      have hline := hp.1.symm.trans hp'.1
      omega
    · rw [← hsplit]
      exact hp'.2.symm.trans hp.2
  have hlength := congrArg List.length hmore
  rw [List.length_drop, List.length_take_of_le hj, List.length_nil] at hlength
  omega

/-- A place is that of one index. -/
theorem isAt_unique {p : Position} (hp : p.IsAt bytes i) (hp' : p.IsAt bytes j)
    (hi : i ≤ bytes.length) (hj : j ≤ bytes.length) : i = j :=
  Nat.le_antisymm (le_of_isAt hp' hp hi) (le_of_isAt hp hp' hj)

/-- Behind the end of a text there are no more places. -/
theorem ofIndex_min (bytes : List UInt8) (i : Nat) :
    ofIndex bytes (min i bytes.length) = ofIndex bytes i := by
  rw [ofIndex, ofIndex]
  rcases Nat.le_total i bytes.length with h | h
  · rw [Nat.min_eq_left h]
  · rw [Nat.min_eq_right h, List.take_length, List.take_of_length_le h]

end DeletionGuard.Position
