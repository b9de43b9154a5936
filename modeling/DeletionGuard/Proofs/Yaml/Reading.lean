import DeletionGuard.Proofs.Reading
import DeletionGuard.Yaml.Token.Source

/-!
# Reading the characters of a line

What the readers of single characters do where no control character is ahead. On one line they
change nothing of a lexer but what is left to be read and the place, which `Lexer.pass` moves on by
the characters that have been read.
-/

namespace DeletionGuard.Yaml

namespace Mark

@[simp] theorem forward_nil (m : Mark) : m.forward [] = m := rfl

theorem forward_append (m : Mark) (cs ds : List Char) :
    (m.forward cs).forward ds = m.forward (cs ++ ds) := by
  simp [forward, Nat.add_assoc]

@[simp] theorem column_forward (m : Mark) (cs : List Char) :
    (m.forward cs).column = m.column + cs.length := rfl

@[simp] theorem line_forward (m : Mark) (cs : List Char) : (m.forward cs).line = m.line := rfl

end Mark

namespace Lexer

/-- The lexer behind the characters `cs` of its line, with `rest` left to be read. -/
def pass (l : Lexer) (cs rest : List Char) : Lexer :=
  { l with rest, mark := l.mark.forward cs }

/-- The lexer behind a line feed, with `rest` left to be read. -/
def nextLine (l : Lexer) (rest : List Char) : Lexer :=
  { l with rest, mark := l.mark.nextLine 1 }

theorem pass_pass (l : Lexer) (cs mid ds rest : List Char) :
    (l.pass cs mid).pass ds rest = l.pass (cs ++ ds) rest := by
  simp only [pass, Mark.forward_append]

theorem pass_nil (l : Lexer) : l.pass [] l.rest = l := rfl

end Lexer

namespace Scan

variable {l : Lexer} {c : Char} {cs : List Char}

theorem run_peekAt (h : l.ending = .endOfText) (k : Nat) :
    (peekAt k).run l = .ok (l.rest[k]?, l) := by
  simp only [peekAt, h]
  cases l.rest[k]? <;> rfl

theorem run_peek (h : l.ending = .endOfText) : peek.run l = .ok (l.rest.head?, l) := by
  rw [peek, run_peekAt h, List.head?_eq_getElem?]

theorem run_next? (h : l.rest = c :: cs) : next?.run l = .ok (some c, l.pass [c] cs) := by
  simp only [next?, h]
  rfl

theorem run_next?_nil (h : l.rest = []) : next?.run l = .ok (none, l) := by
  simp only [next?, h]

theorem run_skip (n : Nat) (l : Lexer) :
    (skip n).run l = .ok ((), l.pass (l.rest.take n) (l.rest.drop n)) := rfl

theorem run_takeWhile {rest : List Char} {p : Char → Bool} (hend : l.ending = .endOfText)
    (h : l.rest = cs ++ rest) (hcs : ∀ c ∈ cs, p c = true) (hrest : ∀ c ∈ rest.head?, p c = false) :
    (takeWhile p).run l = .ok (cs, l.pass cs rest) := by
  have htaken : l.rest.takeWhile p = cs := by
    rw [h, List.takeWhile_append_of_pos hcs]
    cases rest with
    | nil => exact List.append_nil cs
    | cons c rest =>
      rw [List.takeWhile_cons_of_neg (Bool.eq_false_iff.1 (hrest c rfl)), List.append_nil]
  have hskip : (skip cs.length).run l = .ok ((), l.pass cs rest) := by
    rw [run_skip, h, List.take_left, List.drop_left]
  rw [takeWhile, Reader.run_bind_of_eq (r := l) rfl, htaken, Reader.run_bind_of_eq hskip,
    Reader.run_bind_of_eq (r := l.pass cs rest) (run_peek hend)]
  rfl

theorem run_lineEnd (h : l.rest = '\n' :: cs) :
    lineEnd.run l = .ok (['\n'], l.nextLine cs) := by
  simp only [lineEnd, h]
  rfl

theorem run_lineEnd_of_not_isBreak (h : ∀ c ∈ l.rest.head?, isBreak c = false) :
    lineEnd.run l = .ok ([], l) := by
  simp only [lineEnd]
  split
  · next hrest => exact absurd (h '\r' (by rw [hrest]; rfl)) (by decide)
  · next c _ _ hrest =>
    rw [if_neg (Bool.eq_false_iff.1 (h c (by rw [hrest]; rfl)))]
  · rfl

theorem run_isDocumentMark_of_column (h : l.mark.column ≠ 0) (c : Char) :
    (isDocumentMark c).run l = .ok (false, l) := by
  rw [isDocumentMark, Reader.run_bind_of_eq (a := l.mark) (r := l) rfl, if_pos h]
  rfl

theorem run_isDocumentMark_of_ne (hend : l.ending = .endOfText) (h : l.rest.head? ≠ some c) :
    (isDocumentMark c).run l = .ok (false, l) := by
  rw [isDocumentMark, Reader.run_bind_of_eq (a := l.mark) (r := l) rfl, Reader.run_ite]
  split
  · rfl
  · simp only [Reader.run_bind, run_peekAt hend, run_peek hend, h, decide_false, Bool.false_and]
    rfl

theorem run_atDocumentMark_of_column (h : l.mark.column ≠ 0) :
    atDocumentMark.run l = .ok (false, l) := by
  rw [atDocumentMark, Reader.run_bind_of_eq (run_isDocumentMark_of_column h _),
    Reader.run_bind_of_eq (run_isDocumentMark_of_column h _)]
  rfl

theorem run_comment_of_ne (hend : l.ending = .endOfText) (h : l.rest.head? ≠ some '#') :
    comment.run l = .ok ((), l) := by
  rw [comment, Reader.run_bind_of_eq (run_peek hend), if_neg h]
  rfl

theorem run_passOn {α τ : Type} (h : l.rest = c :: cs) (t : τ) (a : α) :
    (passOn t a).run l = .ok (.again t, l.pass [c] cs) := by
  rw [passOn, Reader.run_bind_of_eq (run_next? h)]
  rfl

theorem run_passLineEnd {α τ : Type} (h : l.rest = '\n' :: cs) (t : List Char → τ) (a : α) :
    (passLineEnd t a).run l = .ok (.again (t ['\n']), l.nextLine cs) := by
  rw [passLineEnd, Reader.run_bind_of_eq (run_lineEnd h)]
  rfl

end Scan

end DeletionGuard.Yaml
