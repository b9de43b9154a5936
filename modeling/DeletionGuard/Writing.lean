import DeletionGuard.Report
import DeletionGuard.Sink

/-!
# Writing that can fail

An outlet is offered bytes and tells how many of them it has taken. These may be fewer than all, so
what is left is offered again until nothing is; an outlet that is full fails as soon as it is
offered anything. The first fault ends the writing, and what has been taken before it stays taken.
-/

namespace DeletionGuard

/-- What ends the writing of something. -/
inductive WriteFault where
  /-- The outlet takes no more. -/
  | brokenPipe
  /-- The outlet took nothing of what it was offered, and did not fail either. -/
  | nothingTaken
  | invalidData
  | unexpectedEnd
  deriving DecidableEq, Repr

structure Outlet where
  /-- How many more bytes it takes. -/
  left : Room
  /-- The bytes that it has taken, the last one first. -/
  taken : List UInt8
  deriving DecidableEq, Repr

/-- Something that writes to an outlet and may end with a fault of kind `ε`. -/
abbrev Writing (ε : Type) := ExceptT ε (StateM Outlet)

namespace Outlet

def ofRoom (room : Room) : Outlet := ⟨room, []⟩

def bytes (o : Outlet) : List UInt8 := o.taken.reverse

/-- Offers bytes once, and tells how many of them have been taken. -/
def offer (bytes : List UInt8) : Writing WriteFault Nat := do
  let o : Outlet ← get
  match o.left with
  | none =>
    set { o with taken := bytes.reverse ++ o.taken }
    return bytes.length
  | some n =>
    if n = 0 && !bytes.isEmpty then
      throw .brokenPipe
    else
      let part := bytes.take n
      set (Outlet.mk (some (n - part.length)) (part.reverse ++ o.taken))
      return part.length

/-- Offers bytes until all of them have been taken. -/
def writeAll : List UInt8 → Writing WriteFault Unit
  | [] => return
  | b :: bs => do
    match ← offer (b :: bs) with
    | 0 => throw .nothingTaken
    | n + 1 => writeAll (bs.drop n)
termination_by bytes => bytes.length
decreasing_by
  rw [List.length_drop, List.length_cons]
  omega

end Outlet

/-- Writes pieces one after the other, up to the first one that fails. -/
def writeLine (pieces : List String) : Writing WriteFault Unit :=
  pieces.forM fun piece => Outlet.writeAll (Utf8.ofString piece)

namespace Json

/-- What ends the writing of a value as JSON. -/
inductive WriteError where
  | outlet (fault : WriteFault)
  /-- The value has no form as JSON. -/
  | data
  | ending
  deriving DecidableEq, Repr

/-- The fault that an error stands for where the value is part of something else. -/
def WriteError.fault : WriteError → WriteFault
  | outlet fault => fault
  | data => .invalidData
  | ending => .unexpectedEnd

def Tree.serialize (t : Tree) : Writing WriteError Unit :=
  t.pieces.forM fun piece => (Outlet.writeAll (Utf8.ofString piece)).adapt .outlet

end Json

namespace Report

def writeText (r : Report) : Verdict → Writing WriteFault Unit
  | .success => writeLine r.successLine
  | .violations changes => do
    writeLine r.violationsHead
    changes.forM fun rc => writeLine (changeLine rc)
    writeLine r.hintLine

def writeJson (r : Report) (v : Verdict) : Writing WriteFault Unit := do
  (r.tree v).serialize.adapt Json.WriteError.fault
  writeLine ["\n"]

def write (r : Report) (v : Verdict) : Writing WriteFault Unit :=
  match r.format with
  | .text => r.writeText v
  | .json => r.writeJson v

def writeErrorLine (message : String) : Writing WriteFault Unit :=
  writeLine (errorLine message)

def writeInputError (e : PlanError) : Writing WriteFault Unit :=
  writeErrorLine e.message

end Report

/-- What an outlet with this room takes, and whether the writing fails. -/
def Written.ofWriting (w : Writing WriteFault Unit) (room : Room) : Written :=
  let (result, outlet) := w (.ofRoom room)
  ⟨outlet.bytes, !result.isOk⟩

end DeletionGuard
