import DeletionGuard.Json.Skip

/-!
# Values of known shapes

A `Value α` reads a JSON value of one type: a text, a list of values, or a record of a `Shape`.
A record is written as an object, whose unknown members are skipped, or as an array of its fields
in the order of the shape. Fields that are missing or `null` keep what the empty record has.
-/

namespace DeletionGuard.Json

/-- A reader of one value, which takes at least one byte. -/
structure Value (α : Type) where
  read : Read α
  passes : Reader.Passes read

/-- A field of a record: its key, and a reader of the change that its value makes to the record. -/
structure Field (σ : Type) where
  key : String
  value : Value (σ → σ)

/-- The type of a record: what it is called in messages, its fields, and the record with none. -/
structure Shape (σ : Type) where
  phrase : String
  fields : List (Field σ)
  empty : σ

namespace Read

/-- Reads what stands where a value of another type is due: scalars in full, others not at all. -/
def found : Read Found := do
  match ← peek with
  | none => failAhead .expectedValue
  | some b =>
    if b = byte 'n' then
      discard
      word "ull".toList
      return .null
    else if b = byte 't' then
      discard
      word "rue".toList
      return .boolean true
    else if b = byte 'f' then
      discard
      word "alse".toList
      return .boolean false
    else if b = byte '-' then
      discard
      return .number (← number true)
    else if isDigit b then
      return .number (← number false)
    else if b = byte '"' then
      discard
      return .text (← text)
    else if b = byte '[' then
      return .list
    else if b = byte '{' then
      return .object
    else
      failAhead .expectedValue

/-- Refuses a value of another type than the one that is due. -/
def mismatch (expected : String) : Read α := do
  fail (.invalidType (← found) expected)

/-- Passes the opening of a value that may start with each of `heads`, and tells which it is. -/
def opening (heads : List UInt8) (expected : String) : Read UInt8 := do
  match ← peekToken with
  | none => failAhead (.endOfInput .value)
  | some b => if b ∈ heads then nextIn .value else mismatch expected

/-- Whether another element of a list comes next; the comma before it is passed. -/
def hasElement (first : Bool) : Read Bool := do
  match ← peekToken with
  | none => failAhead (.endOfInput .list)
  | some b =>
    if b = byte ']' then
      return false
    else if first then
      return true
    else if b = byte ',' then
      discard
      match ← peekToken with
      | none => failAhead (.endOfInput .value)
      | some b => if b = byte ']' then failAhead .trailingComma else return true
    else
      failAhead .expectedListComma

/-- Passes the end of an array that has no room for more elements. -/
def closeArray : Read Unit := do
  match ← peekToken with
  | none => failAhead (.endOfInput .list)
  | some b =>
    if b = byte ']' then
      discard
    else if b = byte ',' then
      discard
      if (← peekToken) = some (byte ']') then
        failAhead .trailingComma
      else
        failAhead .trailingCharacters
    else
      failAhead .trailingCharacters

/-- Whether another member of an object comes next; the comma before it is passed. -/
def hasMember (first : Bool) : Read Bool := do
  match ← peekToken with
  | none => failAhead (.endOfInput .object)
  | some b =>
    if b = byte '}' then
      return false
    else if first then
      if b = byte '"' then return true else failAhead .keyNotString
    else if b = byte ',' then
      discard
      match ← peekToken with
      | none => failAhead (.endOfInput .value)
      | some b =>
        if b = byte '"' then return true
        else if b = byte '}' then failAhead .trailingComma
        else failAhead .keyNotString
    else
      failAhead .expectedObjectComma

/-- Passes the colon between a key and its value. -/
def colon : Read Unit := do
  match ← peekToken with
  | none => failAhead (.endOfInput .object)
  | some b => if b = byte ':' then discard else failAhead .expectedColon

/-- Fails for a key that occurs twice, after an attempt to close the object. -/
def duplicate (key : String) : Read α := do
  tryCloseObject
  fail (.duplicateField key)

end Read

theorem passes_mismatch (expected : String) : Reader.Passes (Read.mismatch expected : Read α) :=
  .after _ fun _ => .failWith _

theorem passes_opening (heads : List UInt8) (expected : String) :
    Reader.Passes (Read.opening heads expected) := by
  refine .after _ fun b => ?_
  split
  · exact .failWith _
  split
  · exact passes_nextIn _
  · exact passes_mismatch _

namespace Value

/-! ## Texts -/

def text : Value String where
  read := do
    let _ ← Read.opening [byte '"'] "a string"
    Read.text
  passes := (passes_opening _ _).bind _

/-! ## Lists -/

/-- The elements read so far, the last one first, and whether there are none. -/
structure ListState (α : Type) where
  first : Bool
  before : List α

def elementStep (item : Value α) : Reader.Step Cursor Fault (ListState α) (List α) where
  turn s := do
    if ← Read.hasElement s.first then
      let a ← item.read
      return .again ⟨false, a :: s.before⟩
    else
      return .done s.before.reverse
  passes s := by
    refine .after _ fun b => ?_
    split
    · exact item.passes.bind _
    · exact .pure id

def list (item : Value α) : Value (List α) where
  read := do
    let _ ← Read.opening [byte '['] "a sequence"
    let items ← Reader.iterate (elementStep item) ⟨true, []⟩
    Read.discard
    return items
  passes := (passes_opening _ _).bind _

/-! ## Records -/

/-- The change that the value of a field makes to a record; `null` makes none. -/
def orNull (v : Value α) (set : α → σ → σ) : Value (σ → σ) where
  read := do
    if (← Read.peekToken) = some (byte 'n') then
      let _ ← Read.nextIn .value
      Read.word "ull".toList
      return id
    else
      return set (← v.read)
  passes := by
    refine .after _ fun b => ?_
    split
    · exact (passes_nextIn _).bind _
    · exact v.passes.bind _

/-- The fields that an array gives in order, as far as it goes. -/
def positional : List (Field σ) → Bool → σ → Read σ
  | [], _, s => return s
  | f :: fs, first, s => do
    if ← Read.hasElement first then
      let change ← f.value.read
      positional fs false (change s)
    else
      return s

/-- The record so far, the known keys that have occurred, and whether there was no member yet. -/
structure ObjectState (σ : Type) where
  first : Bool
  keys : List String
  record : σ

/-- The value of the member `key`: of a field if it is one, and skipped otherwise. -/
def member (fields : List (Field σ)) (s : ObjectState σ) (key : String) : Read (ObjectState σ) := do
  match fields.find? (·.key == key) with
  | none =>
    Read.colon
    Read.skipValue
    return { s with first := false }
  | some f =>
    if key ∈ s.keys then
      Read.duplicate key
    else
      Read.colon
      let change ← f.value.read
      return ⟨false, key :: s.keys, change s.record⟩

def memberStep (fields : List (Field σ)) : Reader.Step Cursor Fault (ObjectState σ) σ where
  turn s := do
    if ← Read.hasMember s.first then
      let _ ← Read.nextIn .string
      return .again (← member fields s (← Read.text))
    else
      return .done s.record
  passes s := by
    refine .after _ fun b => ?_
    split
    · exact (passes_nextIn _).bind _
    · exact .pure id

/-- A record of a shape, as an array of its fields or as an object. -/
def record (shape : Shape σ) : Value σ where
  read := do
    let b ← Read.opening [byte '[', byte '{'] shape.phrase
    if b = byte '[' then
      let s ← positional shape.fields true shape.empty
      Read.closeArray
      return s
    else
      let s ← Reader.iterate (memberStep shape.fields) ⟨true, [], shape.empty⟩
      Read.discard
      return s
  passes := (passes_opening _ _).bind _

/-- The value that makes up a whole document. -/
def document (v : Value α) (bytes : List UInt8) : Except Fault α :=
  let read : Read α := do
    let a ← v.read
    if (← Read.peekToken).isSome then
      Read.failAhead .trailingCharacters
    else
      return a
  (read.run (.start bytes)).map (·.1)

end Value

end DeletionGuard.Json
