import DeletionGuard.Json.Number
import DeletionGuard.Json.Text

/-!
# Skipping a value

A value that nothing depends on is passed without being kept. Its form is checked, but neither the
size of its numbers nor the characters of its texts, and it may be nested to any depth: the lists
and objects that are open stand on a stack of their own.
-/

namespace DeletionGuard.Json

/-- A list or object that is open around the value being skipped. -/
inductive Frame where
  | list
  | object
  deriving DecidableEq, Repr

namespace Frame

def construct : Frame → Construct
  | list => .list
  | object => .object

def closing : Frame → UInt8
  | list => byte ']'
  | object => byte '}'

def expectedComma : Frame → Cause
  | list => .expectedListComma
  | object => .expectedObjectComma

end Frame

/-- Where skipping stands: before a value or after one, with the open frames, the innermost first. -/
inductive SkipState where
  | before (frames : List Frame)
  | after (frames : List Frame)

namespace Read

/-- Passes the key of a member that is skipped, and the colon. -/
def skipKey : Read Unit := do
  match ← peekToken with
  | none => failAhead (.endOfInput .object)
  | some b =>
    if b = byte '"' then
      discard
      skipText
      match ← peekToken with
      | none => failAhead (.endOfInput .object)
      | some b => if b = byte ':' then discard else failAhead .expectedColon
    else
      failAhead .keyNotString

/-- Passes what comes before the first value of a list or object that has just been opened. -/
def enter (frame : Frame) (outer : List Frame) : Read SkipState := do
  match ← peekToken with
  | none => failAhead (.endOfInput frame.construct)
  | some b =>
    if b = frame.closing then
      discard
      return .after outer
    else if frame = .object then
      skipKey
      return .before (frame :: outer)
    else
      return .before (frame :: outer)

/-- Passes a scalar that starts with `b`, or opens a list or object. -/
def skipFrom (outer : List Frame) (b : UInt8) : Read SkipState := do
  if b = byte 'n' then
    word "ull".toList
    return .after outer
  else if b = byte 't' then
    word "rue".toList
    return .after outer
  else if b = byte 'f' then
    word "alse".toList
    return .after outer
  else if b = byte '-' then
    skipNumber (← next)
    return .after outer
  else if isDigit b then
    skipNumber (some b)
    return .after outer
  else if b = byte '"' then
    skipText
    return .after outer
  else if b = byte '[' then
    enter .list outer
  else
    enter .object outer

def startsValue (b : UInt8) : Bool :=
  b == byte 'n' || b == byte 't' || b == byte 'f' || b == byte '-' || isDigit b || b == byte '"' ||
    b == byte '[' || b == byte '{'

/-- Passes a scalar or an opening bracket. -/
def skipHead (outer : List Frame) : Read SkipState := do
  match ← peekToken with
  | none => failAhead (.endOfInput .value)
  | some b =>
    if startsValue b then skipFrom outer (← nextIn .value) else failAhead .expectedValue

/-- Passes what follows a value inside `frame`: a comma, with the next key in an object, or the end. -/
def skipSeparator (frame : Frame) (outer : List Frame) (b : UInt8) : Read SkipState := do
  if b = byte ',' then
    if frame = .object then skipKey
    return .before (frame :: outer)
  else
    return .after outer

def skipStep : SkipState → Read (Reader.Turn SkipState Unit)
  | .before outer => do return .again (← skipHead outer)
  | .after [] => return .done ()
  | .after (frame :: outer) => do
    match ← peekToken with
    | none => failAhead (.endOfInput frame.construct)
    | some b =>
      if b = byte ',' ∨ b = frame.closing then
        return .again (← skipSeparator frame outer (← nextIn .value))
      else
        failAhead frame.expectedComma

end Read

theorem passes_skipHead (outer : List Frame) : Reader.Passes (Read.skipHead outer) := by
  refine .after _ fun b => ?_
  split
  · exact .failWith _
  split
  · exact (passes_nextIn _).bind _
  · exact .failWith _

theorem passes_skipStep (s : SkipState) : Reader.PassesIf Reader.Turn.IsAgain (Read.skipStep s) := by
  match s with
  | .before outer => exact (passes_skipHead outer).bind _
  | .after [] => exact .pure id
  | .after (frame :: outer) =>
    refine .after _ fun b => ?_
    split
    · exact .failWith _
    split
    · exact (passes_nextIn _).bind _
    · exact .failWith _

def skipper : Reader.Step Cursor Fault SkipState Unit where
  turn := Read.skipStep
  passes := passes_skipStep

def Read.skipValue : Read Unit := do
  Reader.iterate skipper (← skipHead [])

end DeletionGuard.Json
