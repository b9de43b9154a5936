import DeletionGuard.Text.Utf8

/-!
# Control sequences

A text for a terminal can hold sequences that a terminal obeys and does not show. `strip` leaves
what is shown, white space included. Sequences begin with the escape character and are told apart
by stages; cancelling characters and a new escape character end any of them.
-/

namespace DeletionGuard

/-- What the next character of a text belongs to. -/
inductive ControlStage where
  /-- What is shown. -/
  | ground
  | escape
  | escapeIntermediate
  /-- A sequence with numbers. -/
  | entry
  | parameters
  | intermediate
  | ignored
  /-- What comes before a string for a device. -/
  | deviceEntry
  | deviceParameters
  | deviceIntermediate
  | string
  /-- A command for the surroundings of the terminal, such as the name of its window. -/
  | command
  deriving DecidableEq, Repr

namespace ControlStage

/-- White space other than the space itself. -/
def isLayout (n : Nat) : Bool :=
  n == 0x09 || n == 0x0A || n == 0x0C || n == 0x0D

/-- Whether a character is shown that comes at this stage. -/
def shows (s : ControlStage) (c : Char) : Bool :=
  let n := c.toNat
  match s with
  | ground => (0x20 ≤ n && n != 0x7F) || isLayout n
  | escape | escapeIntermediate | entry | parameters | intermediate | ignored => isLayout n
  | deviceEntry | deviceParameters | deviceIntermediate | string | command => false

/-- Whether the byte that ends strings is one of those that write a character. -/
def endsStrings (c : Char) : Bool :=
  (Utf8.encodeChar c).contains 0x9C

/-- The stage behind the escape character and one more. -/
def afterEscape (n : Nat) : ControlStage :=
  if n < 0x20 || 0x7F ≤ n then escape
  else if n < 0x30 then escapeIntermediate
  else if n == 0x50 then deviceEntry
  else if n == 0x58 || n == 0x5E || n == 0x5F then string
  else if n == 0x5B then entry
  else if n == 0x5D then command
  else ground

/-- The stage behind a character that does not break off what it comes in. -/
def goOn (s : ControlStage) (c : Char) : ControlStage :=
  let n := c.toNat
  match s with
  | ground => ground
  | escape => afterEscape n
  | escapeIntermediate => if 0x30 ≤ n && n < 0x7F then ground else s
  | entry | parameters | intermediate | ignored =>
    if n < 0x20 || 0x7F ≤ n then s
    else if 0x40 ≤ n then ground
    else if s = ignored then ignored
    else if n < 0x30 then intermediate
    else if s = intermediate || (s = parameters && 0x3C ≤ n) then ignored
    else parameters
  | deviceEntry | deviceParameters | deviceIntermediate =>
    if n < 0x20 || 0x7F ≤ n then s
    else if 0x40 ≤ n then string
    else if n < 0x30 then deviceIntermediate
    else if s = deviceIntermediate || (s = deviceParameters && 0x3C ≤ n) then string
    else deviceParameters
  | command => if n == 0x07 then ground else s
  | string => if endsStrings c then ground else s

/-- The stage behind a character. -/
def next (s : ControlStage) (c : Char) : ControlStage :=
  let n := c.toNat
  if n == 0x18 || n == 0x1A then ground
  else if n == 0x1B then escape
  else s.goOn c

end ControlStage

namespace ControlSequence

/-- What is left of characters. A sequence that white space interrupts may be `resumed` by the next
character that is not shown. -/
def stripFrom (resumed : Bool) (stage : ControlStage) (showing : Bool) : List Char → List Char
  | [] => []
  | c :: cs =>
    if (if showing then ControlStage.ground else stage).shows c then
      c :: stripFrom resumed (if resumed && c.toNat < 0x80 then stage else .ground) true cs
    else
      stripFrom resumed (stage.next c) false cs

/-- What is shown of a text. -/
def strip (resumed : Bool) (text : String) : String :=
  String.ofList (stripFrom resumed .ground false text.toList)

end ControlSequence

end DeletionGuard
