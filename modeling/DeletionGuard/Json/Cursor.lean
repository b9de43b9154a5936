import DeletionGuard.Json.Fault
import DeletionGuard.Reading

/-!
# Reading byte by byte

A cursor stands in a document. Looking at the next byte does not pass it, but counts as having
seen it, which is what a stream's faults go by. `Read` is a reader that moves a cursor or fails.
-/

namespace DeletionGuard.Json

structure Cursor where
  /-- How many bytes have been passed. -/
  offset : Nat
  /-- How many bytes have been looked at. -/
  seen : Nat
  rest : List UInt8

namespace Cursor

def start (bytes : List UInt8) : Cursor := ⟨0, 0, bytes⟩

/-- Looks at the next byte, if there is one. -/
def look (c : Cursor) : Cursor :=
  if c.rest.isEmpty then c else { c with seen := c.offset + 1 }

/-- Passes `n` bytes, which the caller knows to be there. -/
def pass (c : Cursor) (n : Nat) : Cursor :=
  ⟨c.offset + n, c.offset + n, c.rest.drop n⟩

end Cursor

instance : Measured Cursor := ⟨fun c => c.rest.length⟩

theorem Cursor.rest_look (c : Cursor) : c.look.rest = c.rest := by
  unfold Cursor.look
  split <;> rfl

abbrev Read := Reader Cursor Fault

/-- The byte that stands for an ASCII character. -/
def byte (c : Char) : UInt8 := c.toUInt8

/-- Spaces, tabs and line ends may stand between tokens. -/
def isBlank (b : UInt8) : Bool :=
  b == 0x20 || b == 0x09 || b == 0x0A || b == 0x0D

def isDigit (b : UInt8) : Bool :=
  byte '0' ≤ b && b ≤ byte '9'

def digitValue (b : UInt8) : Nat :=
  b.toNat - '0'.toNat

namespace Read

def fail (cause : Cause) : Read α :=
  Reader.failWith fun c => ⟨cause, c.offset, c.seen⟩

/-- Fails at the byte that was looked at last. -/
def failAhead (cause : Cause) : Read α :=
  Reader.failWith fun c => ⟨cause, c.seen, c.seen⟩

/-- Fails `n` bytes before the cursor. -/
def failBehind (n : Nat) (cause : Cause) : Read α :=
  Reader.failWith fun c => ⟨cause, c.offset - n, c.offset - n⟩

/-- The next byte, which is not passed. -/
def peek : Read (Option UInt8) where
  run c := .ok (c.rest.head?, c.look)
  forward c a c' h := by
    cases h
    simp [Measured.left, Cursor.rest_look]

/-- Passes the next byte. -/
def next : Read (Option UInt8) where
  run c :=
    match c.rest with
    | [] => .ok (none, c)
    | b :: _ => .ok (some b, c.pass 1)
  forward c a c' h := by
    split at h <;> cases h <;> simp [Measured.left, Cursor.pass]

/-- Passes a byte that has been looked at. -/
def discard : Read Unit :=
  Reader.update (·.pass 1) fun c => by simp [Measured.left, Cursor.pass]

/-- Passes all bytes up to the first for which `p` is false, and looks at that one. -/
def takeWhile (p : UInt8 → Bool) : Read (List UInt8) where
  run c :=
    let taken := c.rest.takeWhile p
    .ok (taken, (c.pass taken.length).look)
  forward c a c' h := by
    cases h
    simp [Measured.left, Cursor.rest_look, Cursor.pass]

/-- The first byte of the next token, which is not passed. -/
def peekToken : Read (Option UInt8) := do
  let _ ← takeWhile isBlank
  peek

/-- Passes the next byte, which must not be missing from a construct. -/
def nextIn (inside : Construct) : Read UInt8 := do
  match ← next with
  | some b => return b
  | none => fail (.endOfInput inside)

/-- The rest of a word of which the first letter has been passed. -/
def word : List Char → Read Unit
  | [] => return ()
  | c :: cs => do
    let b ← nextIn .value
    if b = byte c then word cs else fail .expectedWord

/-- Passes what is left of an object if that is only its closing bracket. -/
def tryCloseObject : Read Unit := do
  if (← peekToken) = some (byte '}') then discard

end Read

theorem passes_nextIn (inside : Construct) : Reader.Passes (Read.nextIn inside) := by
  intro c b c' h _
  obtain ⟨a, c₁, h₁, h₂⟩ := Reader.run_bind_eq_ok.1 h
  cases a with
  | none => cases h₂
  | some b' =>
    cases h₂
    unfold Read.next at h₁
    dsimp only at h₁
    split at h₁ <;> cases h₁
    rename_i hr
    simp [Measured.left, Cursor.pass, hr]

end DeletionGuard.Json
