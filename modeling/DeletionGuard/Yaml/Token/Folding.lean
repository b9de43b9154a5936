import DeletionGuard.Yaml.Token.Source

/-!
# Folding of blanks

Blanks inside a scalar stand for themselves on one line. Blanks around a line end are dropped; a
single line end is folded into a space, and of several the first is dropped.
-/

namespace DeletionGuard.Yaml

/-- The blanks and line ends since the last other character of a scalar. -/
structure Folding where
  /-- The blanks before the first line end, reversed. -/
  blanks : List Char
  /-- The text of the first line end, if there was one; it is empty for one that was escaped. -/
  firstBreak : Option (List Char)
  /-- The text of the other line ends, reversed. -/
  otherBreaks : List Char
  deriving DecidableEq, Repr

namespace Folding

def none : Folding := ⟨[], .none, []⟩

/-- Whether there was a line end. -/
def broken (f : Folding) : Bool :=
  f.firstBreak.isSome

def isNone (f : Folding) : Bool :=
  f.blanks.isEmpty && !f.broken

def addBlank (f : Folding) (c : Char) : Folding :=
  if f.broken then f else { f with blanks := c :: f.blanks }

def addBreak (f : Folding) (text : List Char) : Folding :=
  if f.broken then { f with otherBreaks := text.reverse ++ f.otherBreaks } else ⟨[], some text, []⟩

/-- What the blanks and line ends stand for. -/
def text (f : Folding) : List Char :=
  match f.firstBreak with
  | .none => f.blanks.reverse
  | some first =>
    if first = ['\n'] then
      if f.otherBreaks.isEmpty then [' '] else f.otherBreaks.reverse
    else
      first ++ f.otherBreaks.reverse

end Folding

end DeletionGuard.Yaml
