/-!
# Places in a text

A place is named by the line it is on, counted from 1, and the number of bytes before it on that
line.
-/

namespace DeletionGuard

structure Position where
  line : Nat
  column : Nat
  deriving DecidableEq, Repr

namespace Position

def start : Position := ⟨1, 0⟩

/-- The place after one more byte. -/
def after (p : Position) (b : UInt8) : Position :=
  if b = 0x0A then ⟨p.line + 1, 0⟩ else ⟨p.line, p.column + 1⟩

/-- The place behind the first `i` bytes. -/
def ofIndex (bytes : List UInt8) (i : Nat) : Position :=
  (bytes.take i).foldl after start

end Position

end DeletionGuard
