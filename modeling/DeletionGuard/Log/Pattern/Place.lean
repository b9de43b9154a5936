/-!
# Places in a pattern

A place stands between two characters. It is named by the line it is on and by the characters
before it on that line, both counted from one.
-/

namespace DeletionGuard.Pattern

structure Place where
  line : Nat := 1
  column : Nat := 1
  deriving DecidableEq, Repr

/-- The place behind a character that comes at `p`. -/
def Place.after (p : Place) (c : Char) : Place :=
  if c = '\n' then ⟨p.line + 1, 1⟩ else ⟨p.line, p.column + 1⟩

/-- Whether `p` comes before `q` or is the same place. -/
def Place.le (p q : Place) : Bool :=
  p.line < q.line || (p.line = q.line && p.column ≤ q.column)

/-- What stands between two places. -/
structure Extent where
  start : Place
  stop : Place
  deriving DecidableEq, Repr

namespace Extent

/-- Nothing, at a place. -/
def empty (p : Place) : Extent := ⟨p, p⟩

/-- The character `c` at `p`. -/
def char (p : Place) (c : Char) : Extent := ⟨p, p.after c⟩

def isOneLine (e : Extent) : Bool :=
  e.start.line = e.stop.line

end Extent

end DeletionGuard.Pattern
