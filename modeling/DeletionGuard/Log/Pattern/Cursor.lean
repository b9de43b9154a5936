import DeletionGuard.Log.Pattern.Tree
import DeletionGuard.Reading
import DeletionGuard.Text.Blank

/-!
# Reading patterns

A cursor stands in a pattern. Where the pattern is spaced, blanks and comments stand for nothing,
and what reads on past them says so. `Read` is a reader that moves a cursor or fails.
-/

namespace DeletionGuard.Pattern

structure Cursor where
  rest : List Char
  place : Place := {}
  spaced : Bool := false

instance : Measured Cursor := ⟨fun c => c.rest.length⟩

abbrev Read := Reader Cursor Fault

/-- The rest of a text behind blanks and comments, with its place; a comment ends with its line. -/
def pastBlanks (comment : Bool) (p : Place) : List Char → Place × List Char
  | [] => (p, [])
  | c :: cs =>
    if comment then pastBlanks (c ≠ '\n') (p.after c) cs
    else if Text.isBlank c then pastBlanks false (p.after c) cs
    else if c = '#' then pastBlanks true (p.after c) cs
    else (p, c :: cs)

theorem length_pastBlanks (comment : Bool) (p : Place) (cs : List Char) :
    (pastBlanks comment p cs).2.length ≤ cs.length := by
  induction cs generalizing comment p with
  | nil => exact Nat.le_refl _
  | cons c cs ih =>
    unfold pastBlanks
    split
    · exact Nat.le_succ_of_le (ih _ _)
    split
    · exact Nat.le_succ_of_le (ih _ _)
    split
    · exact Nat.le_succ_of_le (ih _ _)
    · exact Nat.le_refl _

namespace Cursor

/-- Passes one character, if there is one. -/
def pass (c : Cursor) : Cursor :=
  match c.rest with
  | [] => c
  | d :: rest => { c with rest, place := c.place.after d }

/-- Passes blanks and comments where they stand for nothing. -/
def skipBlanks (c : Cursor) : Cursor :=
  if c.spaced then
    let (place, rest) := pastBlanks false c.place c.rest
    { c with place, rest }
  else c

theorem left_pass (c : Cursor) : c.pass.rest.length ≤ c.rest.length := by
  unfold pass
  split <;> simp_all

theorem left_skipBlanks (c : Cursor) : c.skipBlanks.rest.length ≤ c.rest.length := by
  unfold skipBlanks
  split
  · exact length_pastBlanks _ _ _
  · exact Nat.le_refl _

end Cursor

namespace Read

def place : Read Place := do
  return (← Reader.here).place

/-- The characters that are left. -/
def rest : Read (List Char) := do
  return (← Reader.here).rest

/-- The next character, which is not passed. -/
def peek : Read (Option Char) := do
  return (← rest).head?

/-- The character behind the next one, past blanks and comments that stand for nothing. -/
def peekBeyond : Read (Option Char) := do
  return (← Reader.here).pass.skipBlanks.rest.head?

def next? : Read (Option Char) where
  run c := .ok (c.rest.head?, c.pass)
  forward c a c' h := by
    cases h
    exact c.left_pass

/-- Passes a character that has been looked at. -/
def pass : Read Unit :=
  Reader.update Cursor.pass Cursor.left_pass

/-- Passes blanks and comments where they stand for nothing. -/
def skipBlanks : Read Unit :=
  Reader.update Cursor.skipBlanks Cursor.left_skipBlanks

/-- Passes a character that has been looked at, and the blanks behind it. -/
def passOn : Read Unit := do
  pass
  skipBlanks

def skip : Nat → Read Unit
  | 0 => return ()
  | n + 1 => do
    pass
    skip n

/-- Says whether blanks and comments stand for nothing in what follows. -/
def setSpaced (spaced : Bool) : Read Unit :=
  Reader.update (fun c => { c with spaced }) fun _ => Nat.le_refl _

def fail (cause : Cause) (e : Extent) : Read α :=
  Reader.failWith fun _ => ⟨cause, e, none⟩

/-- Fails on what has been read since a place. -/
def failSince (cause : Cause) (start : Place) : Read α := do
  fail cause ⟨start, ← place⟩

def failHere (cause : Cause) : Read α := do
  fail cause (.empty (← place))

/-- Fails on the next character. -/
def failAt (cause : Cause) (c : Char) : Read α := do
  fail cause (.char (← place) c)

/-- One more of the characters that satisfy `p`, behind others that are kept reversed. -/
def collectTurn (p : Char → Bool) (cs : List Char) : Read (Reader.Turn (List Char) (List Char)) := do
  if (← peek).any p then
    match ← next? with
    | none => return .done cs.reverse
    | some c =>
      skipBlanks
      return .again (c :: cs)
  else
    return .done cs.reverse

end Read

theorem passes_next? : Reader.PassesIf (·.isSome) Read.next? := by
  intro c a c' h ha
  cases h
  cases hr : c.rest with
  | nil => simp [hr] at ha
  | cons d rest => simp [Measured.left, Cursor.pass, hr]

/-- What starts by passing a character moves on, if it does so at the end of the text as well. -/
theorem PassesIf.ofNext {q : Option Char → Read α} {P : α → Prop}
    (h : Reader.PassesIf P (q none)) : Reader.PassesIf P (Read.next? >>= q) := by
  refine passes_next?.bindIf fun c? hc => ?_
  cases c? with
  | none => exact h
  | some c => exact absurd rfl hc

theorem passes_collectTurn (p : Char → Bool) (cs : List Char) :
    Reader.PassesIf Reader.Turn.IsAgain (Read.collectTurn p cs) := by
  refine .after _ fun c? => ?_
  split
  · exact PassesIf.ofNext (.pure id)
  · exact .pure id

def collectStep (p : Char → Bool) : Reader.Step Cursor Fault (List Char) (List Char) where
  turn := Read.collectTurn p
  passes := passes_collectTurn p

/-- The characters up to the first that does not satisfy `p`, without blanks between them. -/
def Read.collect (p : Char → Bool) : Read (List Char) :=
  Reader.iterate (collectStep p) []

end DeletionGuard.Pattern
