import DeletionGuard.Log.Pattern.Cursor

/-!
# Escapes

What a backslash makes of the characters behind it: a character, a set of characters, or a place.
-/

namespace DeletionGuard.Pattern

inductive Escape where
  | leaf (l : Leaf)
  | assertion (extent : Extent) (a : Assertion)
  deriving DecidableEq, Repr

def Escape.extent : Escape → Extent
  | leaf l => l.extent
  | assertion e _ => e

def isHexDigit (c : Char) : Bool :=
  c.isDigit || ('a' ≤ c && c ≤ 'f') || ('A' ≤ c && c ≤ 'F')

def hexValue (c : Char) : Nat :=
  if c.isDigit then c.toNat - '0'.toNat
  else if 'a' ≤ c then c.toNat - 'a'.toNat + 10
  else c.toNat - 'A'.toNat + 10

/-- The character whose number the digits are. -/
def hexChar? (digits : List Char) : Option Char :=
  let n := digits.foldl (fun n c => n * 16 + hexValue c) 0
  if n < 0xD800 || (0xE000 ≤ n && n ≤ 0x10FFFF) then some (Char.ofNat n) else none

/-- How many digits the number of a character has behind this letter. -/
def hexWidth? : Char → Option Nat
  | 'x' => some 2
  | 'u' => some 4
  | 'U' => some 8
  | _ => none

def letterClass? : Char → Option (LetterClass × Bool)
  | 'd' => some (.digit, false)
  | 'D' => some (.digit, true)
  | 's' => some (.space, false)
  | 'S' => some (.space, true)
  | 'w' => some (.word, false)
  | 'W' => some (.word, true)
  | _ => none

/-- The control characters that have a letter. -/
def controlChar? : Char → Option Char
  | 'a' => some (Char.ofNat 0x07)
  | 'f' => some (Char.ofNat 0x0C)
  | 't' => some '\t'
  | 'n' => some '\n'
  | 'r' => some '\r'
  | 'v' => some (Char.ofNat 0x0B)
  | _ => none

/-- The places that have a letter or a sign. -/
def assertion? : Char → Option Assertion
  | 'A' => some .startText
  | 'z' => some .stopText
  | 'b' => some (.word .boundary)
  | 'B' => some (.word .noBoundary)
  | '<' => some (.word .start)
  | '>' => some (.word .stop)
  | _ => none

/-- Whether a character stands for itself behind a backslash: only signs of ASCII do. -/
def isEscapable (c : Char) : Bool :=
  c.toNat < 0x80 && !c.isAlphanum && c != '<' && c != '>'

def wordMark? (name : String) : Option WordMark :=
  [("start", .start), ("end", .stop), ("start-half", .startHalf), ("end-half", .stopHalf)].lookup name

namespace Read

/-- The number of a character in so many digits. -/
def hexDigits : Nat → Read (List Char)
  | 0 => return []
  | n + 1 => do
    match ← peek with
    | none => failHere .endInEscape
    | some c =>
      if isHexDigit c then
        passOn
        return c :: (← hexDigits n)
      else
        failAt .badHexDigit c

/-- The number of a character between braces; the first of them comes next. -/
def bracedHex (began : Place) : Read Literal := do
  let brace ← place
  pass
  let start ← place
  skipBlanks
  let digits ← collect isHexDigit
  match ← peek with
  | none => failSince .endInEscape brace
  | some '}' =>
    let stop ← place
    passOn
    if digits.isEmpty then
      failSince .noHexNumber brace
    else
      match hexChar? digits with
      | none => fail .badHexNumber ⟨start, stop⟩
      | some c => return ⟨⟨began, ← place⟩, c, false⟩
  | some c => failAt .badHexDigit c

/-- A character that is written as a number of up to `width` digits. -/
def hexLiteral (began : Place) (width : Nat) : Read Literal := do
  passOn
  match ← peek with
  | some '{' => bracedHex began
  | _ =>
    let start ← place
    let digits ← hexDigits width
    match hexChar? digits with
    | none => failSince .badHexNumber start
    | some c => return ⟨⟨began, ← place⟩, c, width == 2⟩

/-- The name of a property: a letter, or what stands between braces. -/
def property (began : Place) : Read Leaf := do
  passOn
  match ← peek with
  | none => failHere .endInEscape
  | some '{' =>
    passOn
    let name ← collect (· ≠ '}')
    if (← peek).isNone then
      failHere .endInEscape
    else
      pass
      return .property ⟨began, ← place⟩ (String.ofList name)
  | some '\\' => failAt .badProperty '\\'
  | some c =>
    passOn
    return .property ⟨began, ← place⟩ c.toString

/-- What a brace behind the letter of a word's boundary makes of it, if it does not begin a number
of repetitions. -/
def wordMark (began : Place) : Read Assertion := do
  let isNamePart := fun c : Char => c.isAlpha || c == '-'
  if (← peek) = some '{' then
    match ← peekBeyond with
    | none =>
      passOn
      failSince .endInWordMark began
    | some c =>
      if isNamePart c then
        let brace ← place
        passOn
        let start ← place
        let name ← collect isNamePart
        if (← peek) = some '}' then
          let stop ← place
          pass
          match wordMark? (String.ofList name) with
          | some m => return .word m
          | none => fail .unknownWordMark ⟨start, stop⟩
        else
          failSince .unclosedWordMark brace
      else
        return .word .boundary
  else
    return .word .boundary

/-- What a backslash at `began`, which has been passed, stands for with what follows. -/
def escape (began : Place) : Read Escape := do
  match ← peek with
  | none => failSince .endInEscape began
  | some c =>
    match hexWidth? c, letterClass? c with
    | some width, _ => return .leaf (.literal (← hexLiteral began width))
    | none, some (kind, negated) =>
      pass
      return .leaf (.letters ⟨began, ← place⟩ kind negated)
    | none, none =>
      if c = 'p' || c = 'P' then
        return .leaf (← property began)
      else
        pass
        let extent : Extent := ⟨began, ← place⟩
        if c.isDigit then
          fail .backreference extent
        else if isEscapable c then
          return .leaf (.literal ⟨extent, c, false⟩)
        else
          match controlChar? c, assertion? c with
          | some d, _ => return .leaf (.literal ⟨extent, d, false⟩)
          | none, some a =>
            if c = 'b' then
              let a ← wordMark began
              return .assertion ⟨began, ← place⟩ a
            else
              return .assertion extent a
          | none, none => fail .unknownEscape extent

end Read

end DeletionGuard.Pattern
