import Mathlib.Data.String.Basic

/-!
# Texts that are split at a character

What a text is split into are the parts of its list of characters, and a text that is made up of
lines is split into these.
-/

namespace DeletionGuard.Text

open String

theorem atEnd_ofList {l r : List Char} :
    Pos.Raw.atEnd (ofList (l ++ r)) ⟨utf8Len l⟩ = true ↔ r = [] := by
  simp only [atEnd_iff, rawEndPos_ofList, Pos.Raw.mk_le_mk, utf8Len_append]
  rw [← utf8Len_eq_zero]
  omega

theorem next_ofList (l r : List Char) (c : Char) :
    Pos.Raw.next (ofList (l ++ c :: r)) ⟨utf8Len l⟩ = ⟨utf8Len (l ++ [c])⟩ := by
  rw [next_of_valid, utf8Len_append, utf8Len_cons, utf8Len_nil, Nat.zero_add]

/-- The parts from a place on, of which the first one began with `m`. -/
theorem splitOnAux_ofList (c : Char) (l m r : List Char) (acc : List String) :
    splitOnAux (ofList (l ++ m ++ r)) (ofList [c]) ⟨utf8Len l⟩ ⟨utf8Len (l ++ m)⟩ 0 acc =
      acc.reverse ++ (r.splitOnPPrepend (· == c) m.reverse).map ofList := by
  induction r generalizing l m acc with
  | nil =>
    have hpart := extract_of_valid l m []
    rw [← utf8Len_append] at hpart
    rw [splitOnAux, if_pos (atEnd_ofList.2 rfl), hpart, List.reverse_cons,
      List.splitOnPPrepend_nil, List.reverse_reverse, List.map_singleton]
  | cons d r ih =>
    have hpart := extract_of_valid l m (d :: r)
    rw [← utf8Len_append] at hpart
    have hget := get_of_valid (l ++ m) (d :: r)
    have hsep : Pos.Raw.get (ofList [c]) 0 = c := get_of_valid [] [c]
    have hmore : ¬ Pos.Raw.atEnd (ofList (l ++ m ++ d :: r)) ⟨utf8Len (l ++ m)⟩ = true :=
      mt atEnd_ofList.1 (List.cons_ne_nil d r)
    rw [splitOnAux, if_neg hmore, hget, hsep, List.headD_cons]
    by_cases h : (d == c) = true
    · obtain rfl := eq_of_beq h
      have hsepNext : Pos.Raw.next (ofList [d]) 0 = ⟨utf8Len [d]⟩ := next_ofList [] [] d
      have hsepEnd : Pos.Raw.atEnd (ofList [d]) ⟨utf8Len [d]⟩ = true :=
        (@atEnd_ofList [d] []).2 rfl
      have hback : Pos.Raw.unoffsetBy ⟨utf8Len (l ++ m ++ [d])⟩ ⟨utf8Len [d]⟩ =
          ⟨utf8Len (l ++ m)⟩ := by
        rw [Pos.Raw.unoffsetBy, utf8Len_append, Nat.add_sub_cancel]
      have hrest := ih (l ++ m ++ [d]) [] (ofList m :: acc)
      rw [List.append_nil, List.append_assoc, List.singleton_append] at hrest
      simp only [if_pos h, hsepNext, if_pos hsepEnd, next_ofList, hback, hpart]
      rw [hrest, @List.splitOnPPrepend_cons_pos _ (· == d) d r m.reverse h]
      simp
    · have hrest := ih l (m ++ [d]) acc
      rw [← List.append_assoc, List.append_assoc (l ++ m), List.singleton_append] at hrest
      have hback : Pos.Raw.unoffsetBy ⟨utf8Len (l ++ m)⟩ 0 = ⟨utf8Len (l ++ m)⟩ := rfl
      simp only [if_neg h, hback, next_ofList]
      rw [hrest, List.reverse_append, List.reverse_singleton, List.singleton_append,
        @List.splitOnPPrepend_cons_neg _ (· == c) d r m.reverse (Bool.eq_false_iff.2 h)]

theorem splitOn_ofList (s : String) (c : Char) :
    s.splitOn (ofList [c]) = (s.toList.splitOn c).map ofList := by
  have hne : ¬ (ofList [c] == "") = true := by simp
  have h := splitOnAux_ofList c [] [] s.toList []
  rw [splitOn, if_neg hne]
  rwa [List.nil_append, List.nil_append, ofList_toList] at h

theorem splitOn_of_notMem {s : String} {c : Char} (h : c ∉ s.toList) :
    s.splitOn (ofList [c]) = [s] := by
  rw [splitOn_ofList, List.splitOn_eq_singleton h, List.map_singleton, ofList_toList]

theorem mem_of_mem_splitOn {c d : Char} {cs part : List Char} (hpart : part ∈ cs.splitOn c)
    (hd : d ∈ part) : d ∈ cs := by
  induction cs generalizing part with
  | nil =>
    rw [List.splitOn_nil, List.mem_singleton] at hpart
    exact absurd (hpart ▸ hd) List.not_mem_nil
  | cons e cs ih =>
    rw [List.splitOn_cons_eq_if_modifyHead] at hpart
    split at hpart
    · rcases List.mem_cons.1 hpart with rfl | hpart
      · exact absurd hd List.not_mem_nil
      · exact List.mem_cons_of_mem e (ih hpart hd)
    · cases hparts : cs.splitOn c with
      | nil => exact absurd hparts (List.splitOn_ne_nil c cs)
      | cons first parts =>
        rw [hparts] at hpart ih
        rcases List.mem_cons.1 hpart with rfl | hpart
        · rcases List.mem_cons.1 hd with rfl | hd
          · exact List.mem_cons_self
          · exact List.mem_cons_of_mem e (ih List.mem_cons_self hd)
        · exact List.mem_cons_of_mem e (ih (List.mem_cons_of_mem first hpart) hd)

theorem notMem_of_mem_splitOn {c : Char} {cs part : List Char} (hpart : part ∈ cs.splitOn c) :
    c ∉ part := by
  induction cs generalizing part with
  | nil =>
    rw [List.splitOn_nil, List.mem_singleton] at hpart
    exact hpart ▸ List.not_mem_nil
  | cons d cs ih =>
    rw [List.splitOn_cons_eq_if_modifyHead] at hpart
    split at hpart
    · rcases List.mem_cons.1 hpart with rfl | hpart
      · exact List.not_mem_nil
      · exact ih hpart
    · next hne =>
      cases hparts : cs.splitOn c with
      | nil => exact absurd hparts (List.splitOn_ne_nil c cs)
      | cons first parts =>
        rw [hparts] at hpart ih
        rcases List.mem_cons.1 hpart with rfl | hpart
        · rw [List.mem_cons, not_or]
          exact ⟨fun h => hne (beq_iff_eq.2 h.symm), ih List.mem_cons_self⟩
        · exact ih (List.mem_cons_of_mem first hpart)

/-! ### Lines -/

theorem lineEnd_notMem_of_mem_splitOn {s line : String} (hline : line ∈ s.splitOn "\n") :
    '\n' ∉ line.toList := by
  have hparts : s.splitOn "\n" = (s.toList.splitOn '\n').map String.ofList := splitOn_ofList s '\n'
  rw [hparts, List.mem_map] at hline
  obtain ⟨part, hpart, rfl⟩ := hline
  rw [String.toList_ofList]
  exact notMem_of_mem_splitOn hpart

/-- Lines, each with its end, are what is between the line ends of the text that they make up. -/
theorem splitOn_join_lines {lines : List String} (h : ∀ line ∈ lines, '\n' ∉ line.toList) :
    (String.join (lines.map (· ++ "\n"))).splitOn "\n" = lines ++ [""] := by
  have hchars : (String.join (lines.map (· ++ "\n"))).toList =
      ['\n'].intercalate (lines.map String.toList ++ [[]]) := by
    clear h
    induction lines with
    | nil => rfl
    | cons line lines ih =>
      have hmore : lines.map String.toList ++ [[]] ≠ [] := by simp
      rw [List.map_cons, String.join_cons, String.toList_append, ih, String.toList_append,
        List.map_cons, List.cons_append, List.intercalate_cons_of_ne_nil hmore]
      rfl
  have hsplit : (['\n'].intercalate (lines.map String.toList ++ [[]])).splitOn '\n' =
      lines.map String.toList ++ [[]] := by
    refine List.splitOn_intercalate '\n' (fun part hpart => ?_) (by simp)
    rcases List.mem_append.1 hpart with hpart | hpart
    · obtain ⟨line, hline, rfl⟩ := List.mem_map.1 hpart
      exact h line hline
    · exact List.mem_singleton.1 hpart ▸ List.not_mem_nil
  refine (splitOn_ofList _ '\n').trans ?_
  rw [hchars, hsplit, List.map_append, List.map_map]
  simp

end DeletionGuard.Text
