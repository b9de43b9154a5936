import DeletionGuard.Json.Cursor
import DeletionGuard.Text.Utf8

/-!
# String literals

A string literal is a run of pieces, raw bytes and escapes, up to the closing quote. The pieces of
a text that is kept make bytes, which must be UTF-8 when the literal is closed; the pieces of a
text that is skipped are only checked one by one.
-/

namespace DeletionGuard.Json

def hexValue? (b : UInt8) : Option Nat :=
  if byte '0' ≤ b ∧ b ≤ byte '9' then some (b.toNat - '0'.toNat)
  else if byte 'a' ≤ b ∧ b ≤ byte 'f' then some (b.toNat - 'a'.toNat + 10)
  else if byte 'A' ≤ b ∧ b ≤ byte 'F' then some (b.toNat - 'A'.toNat + 10)
  else none

/-- The number that hexadecimal digits stand for. -/
def hexNumber? (bs : List UInt8) : Option Nat :=
  bs.foldl (fun n b => do return (← n) * 16 + (← hexValue? b)) (some 0)

/-- What a backslash and the letter `b` stand for. -/
def shortEscape? (b : UInt8) : Option Char :=
  if b = byte '"' then some '"'
  else if b = byte '\\' then some '\\'
  else if b = byte '/' then some '/'
  else if b = byte 'b' then some (Char.ofNat 0x08)
  else if b = byte 'f' then some (Char.ofNat 0x0C)
  else if b = byte 'n' then some '\n'
  else if b = byte 'r' then some '\r'
  else if b = byte 't' then some '\t'
  else none

def isLeadingSurrogate (n : Nat) : Bool := 0xD800 ≤ n && n ≤ 0xDBFF

def isTrailingSurrogate (n : Nat) : Bool := 0xDC00 ≤ n && n ≤ 0xDFFF

/-- The character that a pair of surrogates stands for. -/
def pairedChar (leading trailing : Nat) : Char :=
  Char.ofNat (0x10000 + (leading - 0xD800) * 0x400 + (trailing - 0xDC00))

namespace Read

/-- The four digits behind a backslash and `u`. -/
def fourHexDigits : Read Nat := do
  let a ← nextIn .string
  let b ← nextIn .string
  let c ← nextIn .string
  let d ← nextIn .string
  match hexNumber? [a, b, c, d] with
  | some n => return n
  | none => fail .invalidEscape

/-- Passes the byte that must follow the first half of a surrogate pair. -/
def pairContinues (expected : Char) : Read Unit := do
  if (← nextIn .string) = byte expected then return () else fail .unfinishedSurrogatePair

/-- The character behind a backslash and `u`. -/
def codePointEscape : Read Char := do
  let n ← fourHexDigits
  if isTrailingSurrogate n then
    fail .loneSurrogate
  else if isLeadingSurrogate n then
    pairContinues '\\'
    pairContinues 'u'
    let m ← fourHexDigits
    if isTrailingSurrogate m then return pairedChar n m else fail .loneSurrogate
  else
    return Char.ofNat n

/-- The character behind a backslash. -/
def escape : Read Char := do
  let b ← nextIn .string
  if b = byte 'u' then
    codePointEscape
  else
    match shortEscape? b with
    | some c => return c
    | none => fail .invalidEscape

/-- The piece that starts with `b`, put in front of the bytes so far, which are reversed. -/
def textPiece (before : List UInt8) (b : UInt8) : Read (Reader.Turn (List UInt8) (List UInt8)) := do
  if b = byte '"' then
    return .done before.reverse
  else if b = byte '\\' then
    let c ← escape
    return .again ((Utf8.encodeChar c).reverse ++ before)
  else if b < 0x20 then
    fail .controlCharacter
  else
    return .again (b :: before)

/-- Passes what follows a backslash in a skipped text. -/
def skipEscape : Read Unit := do
  let b ← nextIn .string
  if b = byte 'u' then
    let _ ← fourHexDigits
  else if (shortEscape? b).isNone then
    fail .invalidEscape

/-- The piece of a skipped text that starts with `b`. -/
def skippedPiece (b : UInt8) : Read (Reader.Turn Unit Unit) := do
  if b = byte '"' then
    return .done ()
  else if b = byte '\\' then
    skipEscape
    return .again ()
  else
    return .again ()

/-- Refuses a control character before it is passed. -/
def refuseControl : Read Unit := do
  if (← peek).any (· < 0x20) then fail .controlCharacter

end Read

def textStep : Reader.Step Cursor Fault (List UInt8) (List UInt8) where
  turn before := do Read.textPiece before (← Read.nextIn .string)
  passes _ := (passes_nextIn _).bind _

def skippedTextStep : Reader.Step Cursor Fault Unit Unit where
  turn _ := do
    Read.refuseControl
    Read.skippedPiece (← Read.nextIn .string)
  passes _ := .after _ fun _ => (passes_nextIn _).bind _

namespace Read

/-- The text up to the closing quote; the opening quote has been passed. -/
def text : Read String := do
  let bytes ← Reader.iterate textStep []
  match Utf8.decode bytes with
  | .ok cs => return String.ofList cs
  | .error good => failBehind (bytes.length - good) .invalidUtf8

/-- Passes a text up to the closing quote. -/
def skipText : Read Unit :=
  Reader.iterate skippedTextStep ()

end Read

end DeletionGuard.Json
