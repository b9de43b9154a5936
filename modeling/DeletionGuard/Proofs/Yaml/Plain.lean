import DeletionGuard.Proofs.Yaml.Lines
import DeletionGuard.Yaml.Token.Plain

/-!
# Plain scalars of one word

A word ends at the colon of its entry or at the end of its line. Behind a line end the lexer reads
on, for a plain scalar may go on further below; in a text of entries it stops before the next entry,
at a comment or at the end of the text.
-/

namespace DeletionGuard.Yaml

/-- At this column, what is left are lines, or the end of a line without an entry and lines. -/
inductive IsBetween (es : List Entry) : Nat → List Char → Prop
  | start {cs : List Char} : StartsWith es cs → IsBetween es 0 cs
  | filler {column : Nat} {w cs : List Char} :
    IsFiller w → SpellsLines es cs → IsBetween es column (w ++ '\n' :: cs)

namespace Scan

open Reader (run_bind_of_eq)

variable {l : Lexer} {s : PlainState} {es : List Entry} {c : Char} {cs w rest : List Char}
  {indent : Int} {begin : Mark}

/-! ### Words -/

theorem run_plainEnds_of_isNone (hend : l.ending = .endOfText) (hflow : l.flowDepth = 0)
    (hs : s.folding = .none) (c : Char) (indent : Int) (begin : Mark) :
    (plainEnds s c indent begin).run l = .ok (c == ':' && endOr isSpace l.rest[1]?, l) := by
  have hblanks : (blanksEndPlain s c indent).run l = .ok (false, l) := by
    rw [blanksEndPlain, hs]
    rfl
  have hin : l.inFlow = false := by simp [Lexer.inFlow, hflow]
  rw [plainEnds, run_bind_of_eq hblanks]
  simp only [Bool.false_eq_true, if_false]
  rw [run_bind_of_eq (a := l) (r := l) rfl, run_bind_of_eq (run_peekAt hend 1), hin]
  simp only [Bool.false_and, Bool.false_eq_true, if_false, Bool.or_false]
  rfl

/-- A character that is neither white space nor the end of the scalar. -/
theorem run_plainTurn_of_plainEnds (hend : l.ending = .endOfText) (hrest : l.rest = c :: rest)
    (hc : isSpace c = false) {ends : Bool}
    (hends : (plainEnds s c indent begin).run l = .ok (ends, l)) :
    (plainTurn indent begin s).run l =
      if ends then .ok (.done s, l)
      else .ok (.again (s.push c (l.mark.forward [c])), l.pass [c] rest) := by
  have hpeek : peek.run l = .ok (some c, l) := by rw [run_peek hend, hrest]; rfl
  rw [isSpace, Bool.or_eq_false_iff] at hc
  rw [plainTurn, run_bind_of_eq hpeek, run_bind_of_eq (a := l.mark) (r := l) rfl]
  simp only [hc.1, hc.2, Bool.false_eq_true, if_false]
  rw [run_bind_of_eq hends]
  cases ends with
  | true => rfl
  | false => exact run_passOn hrest _ _

theorem run_plainStep_word (hend : l.ending = .endOfText) (hflow : l.flowDepth = 0)
    (hcs : ∀ c ∈ cs, IsWordChar c) (hrest : l.rest = cs ++ rest) (text : List Char) (indent : Int)
    (begin : Mark) :
    (Reader.iterate (plainStep indent begin) ⟨text, l.mark, .none⟩).run l =
      (Reader.iterate (plainStep indent begin) ⟨cs.reverse ++ text, l.mark.forward cs, .none⟩).run
        (l.pass cs rest) := by
  induction cs generalizing l text with
  | nil => rw [show rest = l.rest from hrest.symm]; rfl
  | cons c cs ih =>
    obtain ⟨hc, hcs⟩ := List.forall_mem_cons.1 hcs
    have hends := run_plainEnds_of_isNone (s := ⟨text, l.mark, .none⟩) hend hflow rfl c indent begin
    have hcolon : (c == ':' && endOr isSpace l.rest[1]?) = false := by
      rw [beq_eq_false_iff_ne.2 (hc.ne (by decide +kernel)), Bool.false_and]
    rw [hcolon] at hends
    have hturn := run_plainTurn_of_plainEnds hend hrest hc.not_isSpace hends
    rw [Reader.run_iterate_again hturn]
    refine (ih (l := l.pass [c] (cs ++ rest)) hend hflow hcs rfl (c :: text)).trans ?_
    rw [Lexer.pass_pass]
    simp [Lexer.pass, Mark.forward_append]

/-- A word that a colon and a space follow ends before them. -/
theorem run_plain_key (hend : l.ending = .endOfText) (hflow : l.flowDepth = 0)
    (hcs : ∀ c ∈ cs, IsWordChar c) (c : Char) :
    (plain c begin).run (l.pass [c] (cs ++ ':' :: ' ' :: rest)) =
      .ok ((c :: cs, l.mark.forward (c :: cs)), l.pass (c :: cs) (':' :: ' ' :: rest)) := by
  have hends := run_plainEnds_of_isNone (l := l.pass (c :: cs) (':' :: ' ' :: rest))
    (s := ⟨cs.reverse ++ [c], l.mark.forward (c :: cs), .none⟩) hend hflow rfl ':' (l.indent + 1)
    begin
  have hturn := run_plainTurn_of_plainEnds (l := l.pass (c :: cs) (':' :: ' ' :: rest)) hend rfl rfl
    hends
  have hword := run_plainStep_word (l := l.pass [c] (cs ++ ':' :: ' ' :: rest)) hend hflow hcs rfl
    [c] (l.indent + 1) begin
  have hmark : (l.pass [c] (cs ++ ':' :: ' ' :: rest)).mark = l.mark.forward [c] := rfl
  rw [Lexer.pass_pass, hmark, Mark.forward_append] at hword
  rw [plain, run_bind_of_eq (a := l.pass [c] _) (r := l.pass [c] _) rfl,
    run_bind_of_eq (a := l.mark.forward [c]) (r := l.pass [c] _) rfl]
  refine (run_bind_of_eq (hword.trans (Reader.run_iterate_done hturn)) _).trans ?_
  simp only [Folding.broken, Folding.none, Option.isSome_none, Bool.false_eq_true, if_false,
    List.reverse_append, List.reverse_reverse, List.reverse_singleton]
  rfl

/-! ### Behind a line end -/

theorem run_plainTurn_lineEnd (hend : l.ending = .endOfText) (hrest : l.rest = '\n' :: rest)
    (s : PlainState) (indent : Int) (begin : Mark) :
    (plainTurn indent begin s).run l =
      .ok (.again { s with folding := s.folding.addBreak ['\n'] }, l.nextLine rest) := by
  have hpeek : peek.run l = .ok (some '\n', l) := by rw [run_peek hend, hrest]; rfl
  rw [plainTurn, run_bind_of_eq hpeek, run_bind_of_eq (a := l.mark) (r := l) rfl]
  exact run_passLineEnd hrest _ _

theorem broken_addBreak (f : Folding) (text : List Char) : (f.addBreak text).broken = true := by
  rw [Folding.addBreak]
  split
  · next h => exact h
  · rfl

/-- Behind a line end, spaces at the start of a line count for nothing. -/
theorem run_plainStep_spaces (hend : l.ending = .endOfText) (hs : s.folding.broken = true)
    (n : Nat) (hrest : l.rest = List.replicate n ' ' ++ rest) :
    (Reader.iterate (plainStep indent begin) s).run l =
      (Reader.iterate (plainStep indent begin) s).run (l.pass (List.replicate n ' ') rest) := by
  induction n generalizing l with
  | zero => rw [show rest = l.rest from hrest.symm]; rfl
  | succ n ih =>
    have hrest' : l.rest = ' ' :: (List.replicate n ' ' ++ rest) := hrest
    have hpeek : peek.run l = .ok (some ' ', l) := by rw [run_peek hend, hrest']; rfl
    have hblank : { s with folding := s.folding.addBlank ' ' } = s := by
      rw [Folding.addBlank, if_pos hs]
    have hturn : (plainTurn indent begin s).run l =
        .ok (.again s, l.pass [' '] (List.replicate n ' ' ++ rest)) := by
      have hpass := run_passOn hrest' { s with folding := s.folding.addBlank ' ' } s
      have htab : (s.folding.broken && ' ' == '\t' && decide ((l.mark.column : Int) < indent)) =
          false := by
        rw [show (' ' == '\t') = false from rfl, Bool.and_false, Bool.false_and]
      rw [plainTurn, run_bind_of_eq hpeek, run_bind_of_eq (a := l.mark) (r := l) rfl]
      simp only [show isBreak ' ' = false from rfl, show isBlank ' ' = true from rfl, htab,
        Bool.false_eq_true, if_false, if_true]
      exact hpass.trans (by rw [hblank])
    rw [Reader.run_iterate_again hturn, ih (l := l.pass [' '] _) hend rfl, Lexer.pass_pass]
    rfl

/-- Behind a line end, the scalar ends before a comment and before what is not indented. -/
theorem run_plainEnds_of_broken (hflow : l.flowDepth = 0) (hindent : 0 < indent)
    (hs : s.folding.broken = true) (h : (l.mark.column : Int) < indent ∨ c = '#') :
    (plainEnds s c indent begin).run l = .ok (true, l) := by
  have hisNone : s.folding.isNone = false := by
    rw [Folding.isNone, hs, Bool.not_true, Bool.and_false]
  have hin : l.inFlow = false := by simp [Lexer.inFlow, hflow]
  have hblanks : (blanksEndPlain s c indent).run l = .ok (true, l) := by
    rw [blanksEndPlain, hisNone]
    simp only [Bool.false_eq_true, if_false]
    rw [run_bind_of_eq (a := l) (r := l) rfl, hin]
    simp only [Bool.not_false, Bool.true_and, decide_eq_true_eq]
    split
    · rfl
    · next hright =>
      have hcomment : c = '#' := h.resolve_left hright
      have hcolumn : l.mark.column ≠ 0 := by omega
      rw [run_bind_of_eq (run_atDocumentMark_of_column hcolumn), hcomment]
      rfl
  rw [plainEnds, run_bind_of_eq hblanks]
  rfl

theorem run_plainStep_of_broken (hend : l.ending = .endOfText) (hflow : l.flowDepth = 0)
    (hindent : 0 < indent) (hs : s.folding.broken = true) (hrest : l.rest = c :: rest)
    (hc : isSpace c = false) (h : (l.mark.column : Int) < indent ∨ c = '#') :
    (Reader.iterate (plainStep indent begin) s).run l = .ok (s, l) :=
  Reader.run_iterate_done
    (run_plainTurn_of_plainEnds hend hrest hc (run_plainEnds_of_broken hflow hindent hs h))

/-- Behind a line end, everything is passed that cannot go on with the scalar. -/
theorem run_plainStep_lines (begin : Mark) (hend : l.ending = .endOfText) (hflow : l.flowDepth = 0)
    (hs : s.folding.broken = true) (hcolumn : l.mark.column = 0) (h : SpellsLines es l.rest) :
    ∃ s' rest m, s'.text = s.text ∧ s'.folding.broken = true ∧ IsBetween es m.column rest ∧
      (Reader.iterate (plainStep 1 begin) s).run l = .ok (s', { l with rest, mark := m }) := by
  generalize hcs : l.rest = cs at h
  induction h generalizing l s with
  | nil =>
    have hpeek : peek.run l = .ok (none, l) := by rw [run_peek hend, hcs]; rfl
    have hturn : (plainTurn 1 begin s).run l = .ok (.done s, l) := by
      rw [plainTurn, run_bind_of_eq hpeek]
      rfl
    refine ⟨s, l.rest, l.mark, rfl, hs, ?_, Reader.run_iterate_done hturn⟩
    rw [hcolumn, hcs]
    exact .start .nil
  | @filler es w cs hw hlines ih =>
    cases hw with
    | blank n =>
      have hturn := run_plainTurn_lineEnd (l := l.pass (List.replicate n ' ') ('\n' :: cs)) hend rfl
        s 1 begin
      obtain ⟨s', rest, m, htext, hbroken, hbetween, hrun⟩ :=
        ih (l := (l.pass (List.replicate n ' ') ('\n' :: cs)).nextLine cs)
          (s := { s with folding := s.folding.addBreak ['\n'] }) hend hflow
          (broken_addBreak _ _) rfl rfl
      refine ⟨s', rest, m, htext, hbroken, hbetween, ?_⟩
      rw [run_plainStep_spaces hend hs n hcs, Reader.run_iterate_again hturn]
      exact hrun
    | @comment n text htext =>
      rw [List.append_assoc] at hcs
      refine ⟨s, '#' :: text ++ '\n' :: cs, l.mark.forward (List.replicate n ' '), rfl, hs,
        .filler (w := '#' :: text) (.comment 0 htext) hlines, ?_⟩
      rw [run_plainStep_spaces hend hs n hcs]
      exact run_plainStep_of_broken (l := l.pass _ _) hend hflow (by decide) hs rfl rfl (.inr rfl)
  | entry hkey hvalue hlines =>
    obtain ⟨c, key, heq, hc, -⟩ := hkey.exists_cons
    refine ⟨s, l.rest, l.mark, rfl, hs, ?_, ?_⟩
    · rw [hcolumn, hcs]
      exact .start (.entry hkey hvalue hlines)
    · rw [heq] at hcs
      refine run_plainStep_of_broken hend hflow (by decide) hs hcs hc.not_isSpace (.inl ?_)
      rw [hcolumn]
      decide

/-- A word at the end of its line ends there. -/
theorem run_plain_value (hend : l.ending = .endOfText) (hflow : l.flowDepth = 0)
    (hindent : l.indent = 0) (hcs : ∀ c ∈ cs, IsWordChar c) (hrest : l.rest = cs ++ '\n' :: w)
    (hw : SpellsLines es w) (c : Char) (begin : Mark) :
    ∃ stop rest m, IsBetween es m.column rest ∧
      (plain c begin).run l =
        .ok ((c :: cs, stop), { l with rest, mark := m, keyAllowed := true }) := by
  have hturn := run_plainTurn_lineEnd (l := l.pass cs ('\n' :: w)) hend rfl
    ⟨cs.reverse ++ [c], l.mark.forward cs, .none⟩ 1 begin
  obtain ⟨s', rest, m, htext, hbroken, hbetween, hrun⟩ :=
    run_plainStep_lines (l := (l.pass cs ('\n' :: w)).nextLine w)
      (s := ⟨cs.reverse ++ [c], l.mark.forward cs, Folding.addBreak .none ['\n']⟩) begin hend hflow
      (broken_addBreak _ _) rfl hw
  have hiterate : (Reader.iterate (plainStep 1 begin) ⟨[c], l.mark, .none⟩).run l =
      .ok (s', { l with rest, mark := m }) := by
    rw [run_plainStep_word hend hflow hcs hrest [c] 1 begin, Reader.run_iterate_again hturn]
    exact hrun
  have hindent' : l.indent + 1 = 1 := by
    rw [hindent]
    rfl
  have hresult : s'.text.reverse = c :: cs := by
    rw [htext, List.reverse_append, List.reverse_reverse]
    rfl
  refine ⟨s'.stop, rest, m, hbetween, ?_⟩
  rw [plain, run_bind_of_eq (a := l) (r := l) rfl, run_bind_of_eq (a := l.mark) (r := l) rfl,
    hindent', run_bind_of_eq hiterate, hbroken, hresult]
  rfl

end Scan

end DeletionGuard.Yaml
