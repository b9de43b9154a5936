import DeletionGuard.Text.Utf8

/-!
# Writing to a sink

A sink takes bytes until it has no room left. A piece that does not fit is taken as far as there is
room and ends the writing, so pieces without bytes never do.
-/

namespace DeletionGuard

/-- How many bytes a sink takes; `none` means that there is no end to it. -/
abbrev Room := Option Nat

/-- A sink between two pieces. -/
structure Sink where
  /-- What is left of its room. -/
  left : Room
  /-- The bytes that it has taken, the last one first. -/
  taken : List UInt8
  /-- Whether a piece did not fit. -/
  failed : Bool

namespace Sink

def ofRoom (room : Room) : Sink := ⟨room, [], false⟩

/-- Writes one more piece, unless an earlier one has failed. -/
def write (s : Sink) (piece : String) : Sink :=
  if s.failed then
    s
  else
    let bytes := Utf8.ofString piece
    match s.left with
    | none => { s with taken := bytes.reverse ++ s.taken }
    | some n => ⟨some (n - bytes.length), (bytes.take n).reverse ++ s.taken, n < bytes.length⟩

end Sink

/-- What a sink has taken, and whether writing has failed. -/
structure Written where
  bytes : List UInt8
  failed : Bool
  deriving DecidableEq, Repr

namespace Written

/-- The text that has been taken. A character that was cut short shows as U+FFFD. -/
def text (w : Written) : String :=
  match Utf8.decode w.bytes with
  | .ok cs => String.ofList cs
  | .error good =>
    let cs := (Utf8.decode (w.bytes.take good)).toOption.getD []
    String.ofList (cs ++ [Char.ofNat 0xFFFD])

end Written

def writePieces (room : Room) (pieces : List String) : Written :=
  let sink := pieces.foldl Sink.write (.ofRoom room)
  ⟨sink.taken.reverse, sink.failed⟩

end DeletionGuard
