import DeletionGuard.Numeric.Shortest
import DeletionGuard.Text.Position
import DeletionGuard.Text.Quoted

/-!
# What can be wrong with a document

A fault has a cause and a place. Documents held in memory and documents read as a stream name
places differently: a stream counts a byte as passed once it has been looked at, so every fault
keeps both places and the medium picks one.
-/

namespace DeletionGuard.Json

/-- What was being read when the document ended. -/
inductive Construct where
  | value
  | string
  | list
  | object
  deriving DecidableEq, Repr

namespace Construct

def phrase : Construct → String
  | value => "a value"
  | string => "a string"
  | list => "a list"
  | object => "an object"

end Construct

/-- A number as it was written. -/
inductive Number where
  | integer (n : Int)
  | real (negative : Bool) (x : Binary64)
  deriving DecidableEq, Repr

/-- A value found where one of another type is due; of lists and objects only the kind is told. -/
inductive Found where
  | null
  | boolean (b : Bool)
  | number (n : Number)
  | text (s : String)
  | list
  | object
  deriving DecidableEq, Repr

namespace Found

/-- Numbers from `10 ^ -5` up to `10 ^ 16` are written without an exponent. -/
def layout : NumberLayout := ⟨fun point => -5 < point && point ≤ 16⟩

def phrase : Found → String
  | null => "null"
  | boolean b => "boolean `" ++ (if b then "true" else "false") ++ "`"
  | number (.integer n) => "integer `" ++ toString n ++ "`"
  | number (.real negative x) => "floating point `" ++ layout.text negative x ++ "`"
  | text s => "string " ++ Text.quote s
  | list => "sequence"
  | object => "map"

end Found

inductive Cause where
  | endOfInput (inside : Construct)
  | expectedValue
  | expectedWord
  | expectedColon
  | expectedListComma
  | expectedObjectComma
  | keyNotString
  | trailingComma
  | trailingCharacters
  | invalidNumber
  | numberOutOfRange
  | invalidEscape
  | unfinishedSurrogatePair
  | loneSurrogate
  | invalidUtf8
  | controlCharacter
  | invalidType (found : Found) (expected : String)
  | duplicateField (name : String)
  deriving DecidableEq, Repr

/-- The three kinds of faults that callers tell apart. -/
inductive Category where
  | syntactic
  | data
  | endOfInput
  deriving DecidableEq, Repr

namespace Cause

def category : Cause → Category
  | endOfInput _ => .endOfInput
  | invalidType _ _ => .data
  | duplicateField _ => .data
  | _ => .syntactic

def message : Cause → String
  | endOfInput inside => "EOF while parsing " ++ inside.phrase
  | expectedValue => "expected value"
  | expectedWord => "expected ident"
  | expectedColon => "expected `:`"
  | expectedListComma => "expected `,` or `]`"
  | expectedObjectComma => "expected `,` or `\x7d`"
  | keyNotString => "key must be a string"
  | trailingComma => "trailing comma"
  | trailingCharacters => "trailing characters"
  | invalidNumber => "invalid number"
  | numberOutOfRange => "number out of range"
  | invalidEscape => "invalid escape"
  | unfinishedSurrogatePair => "unexpected end of hex escape"
  | loneSurrogate => "lone leading surrogate in hex escape"
  | invalidUtf8 => "invalid unicode code point"
  | controlCharacter => "control character (\\u0000-\\u001F) found while parsing a string"
  | invalidType found expected => "invalid type: " ++ found.phrase ++ ", expected " ++ expected
  | duplicateField name => "duplicate field `" ++ name ++ "`"

end Cause

/-- Where a document is read from. -/
inductive Medium where
  | memory
  | stream
  deriving DecidableEq, Repr

structure Fault where
  cause : Cause
  /-- How many bytes precede the fault in a document held in memory. -/
  inMemory : Nat
  /-- How many bytes of a stream have been taken when the fault is found. -/
  inStream : Nat
  deriving DecidableEq, Repr

def Fault.index (f : Fault) : Medium → Nat
  | .memory => f.inMemory
  | .stream => f.inStream

/-- A fault at its place in a given document. -/
structure LocatedFault where
  cause : Cause
  position : Position
  deriving DecidableEq, Repr

/-- A fault with its parts told apart, as diagnostics show it. -/
def describeFault (message : String) (position : Position) : String :=
  "Error(" ++ Text.quote message ++ ", line: " ++ toString position.line ++
    ", column: " ++ toString position.column ++ ")"

namespace LocatedFault

def message (f : LocatedFault) : String :=
  f.cause.message ++ " at line " ++ toString f.position.line ++ " column " ++
    toString f.position.column

def describe (f : LocatedFault) : String :=
  describeFault f.cause.message f.position

end LocatedFault

def Fault.locate (f : Fault) (medium : Medium) (bytes : List UInt8) : LocatedFault :=
  ⟨f.cause, Position.ofIndex bytes (f.index medium)⟩

end DeletionGuard.Json
