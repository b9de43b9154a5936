import DeletionGuard.Log.Filter
import DeletionGuard.Proofs.Text.ControlSequence
import DeletionGuard.Proofs.Text.Split

/-!
# Log entries as lines

What is written of a log entry ends a line. The stripping of an entry that is written without
colours can take the end of its line away, but only if a control sequence begins in the entry.
-/

namespace DeletionGuard

open ControlSequence

/-- A line begins behind a text. -/
def Text.EndsLine (s : String) : Prop :=
  s = "" ∨ ∃ t, s = t ++ "\n"

namespace Text.EndsLine

theorem append {s t : String} (hs : EndsLine s) (ht : EndsLine t) : EndsLine (s ++ t) := by
  rcases ht with rfl | ⟨u, rfl⟩
  · rwa [String.append_empty]
  · exact .inr ⟨s ++ u, String.append_assoc.symm⟩

theorem join {ts : List String} (h : ∀ t ∈ ts, EndsLine t) : EndsLine (String.join ts) := by
  induction ts with
  | nil => exact .inl rfl
  | cons t ts ih =>
    rw [String.join_cons]
    exact append (h t List.mem_cons_self) (ih fun u hu => h u (List.mem_cons_of_mem t hu))

end Text.EndsLine

/-! ### Times -/

namespace Timestamp

theorem isFree_padded (width n : Nat) : IsFree (padded width n) := by
  have hzeros : opener ∉ List.replicate (width - (Nat.toDigits 10 n).length) '0' := fun h =>
    absurd (List.eq_of_mem_replicate h) (by decide)
  rw [IsFree, padded, String.toList_ofList, List.leftpad, List.mem_append, not_or]
  exact ⟨hzeros, by simpa [IsFree] using IsFree.ofNat n⟩

theorem isFree_text (t : Timestamp) : IsFree t.text := by
  have hmark : IsFree "-" ∧ IsFree "T" ∧ IsFree ":" ∧ IsFree "Z" := by decide
  obtain ⟨hdash, hT, hcolon, hZ⟩ := hmark
  have hdate := (((isFree_padded 4 t.year).append hdash).append (isFree_padded 2 t.month)).append hdash
  have hhour := ((hdate.append (isFree_padded 2 t.day)).append hT).append
    (isFree_padded 2 (t.seconds / 3600 % 24))
  have hminute := (hhour.append hcolon).append (isFree_padded 2 (t.seconds / 60 % 60))
  exact ((hminute.append hcolon).append (isFree_padded 2 (t.seconds % 60))).append hZ

end Timestamp

/-! ### Entries -/

namespace LogEntry

variable {time : Option Timestamp} {e : LogEntry}

/-- Neither the target nor the message of an entry has a control sequence in it. -/
def IsFree (e : LogEntry) : Prop :=
  ControlSequence.IsFree e.target ∧ ControlSequence.IsFree e.message

theorem indented_eq (message : String) :
    indented message =
      "\n    ".intercalate ((message.toList.splitOn '\n').map String.ofList) :=
  congrArg _ (Text.splitOn_ofList message '\n')

theorem indented_of_notMem {message : String} (h : '\n' ∉ message.toList) :
    indented message = message := by
  have hsplit : message.splitOn "\n" = [message] := Text.splitOn_of_notMem h
  rw [indented, hsplit, String.intercalate_singleton]

theorem isFree_indented {message : String} (h : ControlSequence.IsFree message) :
    ControlSequence.IsFree (indented message) := by
  rw [indented_eq]
  refine IsFree.intercalate (by decide) fun t ht => ?_
  obtain ⟨part, hpart, rfl⟩ := List.mem_map.1 ht
  rw [ControlSequence.IsFree, String.toList_ofList]
  exact fun hmem => h (Text.mem_of_mem_splitOn hpart hmem)

theorem isFree_timeText (time : Option Timestamp) : ControlSequence.IsFree (timeText time) := by
  cases time with
  | none => exact (by decide : ControlSequence.IsFree "")
  | some t => exact IsFree.append t.isFree_text (by decide)

/-- An entry up to the end of its line. -/
def opening (time : Option Timestamp) (e : LogEntry) : String :=
  "[" ++ timeText time ++ e.level.label ++ (" " ++ e.target) ++ "]" ++ (" " ++ indented e.message)

theorem text_styled : (e.styled time).text = e.opening time ++ "\n" := by
  simp [styled, StyledText.text, opening, String.append_assoc]

/-- The last part of an entry has no features, so nothing stands behind the end of its line. -/
theorem render_styled (time : Option Timestamp) (e : LogEntry) :
    ∃ t, (e.styled time).render = t ++ "\n" := by
  let features : List Span :=
    [⟨"[", .gray⟩, ⟨timeText time, .plain⟩, ⟨e.level.label, e.level.style⟩,
      ⟨" " ++ e.target, .plain⟩, ⟨"]", .gray⟩]
  have hstyled : e.styled time = features ++ [⟨" " ++ indented e.message ++ "\n", .plain⟩] := rfl
  refine ⟨StyledText.render features ++ (" " ++ indented e.message), ?_⟩
  rw [hstyled, StyledText.render, StyledText.render, List.map_append, String.join_append]
  simp [StyledText.renderSpan, Style.plain, String.append_assoc]

theorem isFree_opening (h : e.IsFree) : ControlSequence.IsFree (e.opening time) := by
  have hlabel : ControlSequence.IsFree e.level.label := by cases e.level <;> decide
  have htarget := IsFree.append (by decide : ControlSequence.IsFree " ") h.1
  have hmessage := IsFree.append (by decide : ControlSequence.IsFree " ") (isFree_indented h.2)
  have hstart := IsFree.append (by decide : ControlSequence.IsFree "[") (isFree_timeText time)
  refine IsFree.append (IsFree.append (IsFree.append (hstart.append hlabel) htarget) ?_) hmessage
  decide

theorem endsLine_line {colors : Bool} (h : colors = true ∨ e.IsFree) :
    Text.EndsLine (e.line colors time) := by
  cases colors with
  | true =>
    obtain ⟨t, ht⟩ := render_styled time e
    exact .inr ⟨t, ht⟩
  | false =>
    have hfree := h.resolve_left Bool.false_ne_true
    have hline : ControlSequence.IsFree (e.opening time ++ "\n") :=
      (isFree_opening hfree).append (by decide)
    obtain ⟨shown, hshown⟩ := strip_line true hline
    exact .inr ⟨shown, by rw [line, text_styled, ← hshown]; rfl⟩

end LogEntry

namespace LogFilter

theorem endsLine_warningLine (warning : String) : Text.EndsLine (warningLine warning) :=
  .inr ⟨"warning: " ++ warning ++ ", ignoring it", by simp [warningLine, String.append_assoc]⟩

/-- An empty description leaves the rank as it is. -/
theorem ofDescription_empty (rank : Nat) :
    ofDescription rank "" = (⟨[⟨none, rank⟩], none⟩, []) := by
  have hparts : "".splitOn "/" = [""] := @Text.splitOn_of_notMem "" '/' (by decide)
  have hdirectives : "".splitOn "," = [""] := @Text.splitOn_of_notMem "" ',' (by decide)
  simp only [ofDescription, hparts, hdirectives]
  rfl

/-- A description that names a level and nothing else is that level. -/
theorem ofDescription_of_rank? {rank level : Nat} {word : String} (hslash : '/' ∉ word.toList)
    (hcomma : ',' ∉ word.toList) (hequals : '=' ∉ word.toList) (htrim : Text.trim word = word)
    (hword : word.isEmpty = false) (h : rank? word = some level) :
    ofDescription rank word = (⟨[⟨none, level⟩], none⟩, []) := by
  have hparts : word.splitOn "/" = [word] := Text.splitOn_of_notMem hslash
  have hdirectives : word.splitOn "," = [word] := Text.splitOn_of_notMem hcomma
  have hdirective : readDirective word = .ok ⟨none, level⟩ := by
    have hsides : word.splitOn "=" = [word] := Text.splitOn_of_notMem hequals
    simp only [readDirective, hsides, h]
  simp only [ofDescription, hparts, hdirectives, readDirectives, List.foldl_cons, List.foldl_nil,
    htrim, hword, hdirective]
  rfl

/-- A filter that was not described holds back what comes behind its rank. -/
theorem shows_eq_false {rank : Nat} {e : LogEntry} (h : rank < e.level.rank) :
    shows ⟨[⟨none, rank⟩], none⟩ e = false := by
  have hrank : rankOf ⟨[⟨none, rank⟩], none⟩ e.target = rank := rfl
  rw [shows, hrank, decide_eq_false (Nat.not_le.2 h), Bool.false_and]

end LogFilter

end DeletionGuard
