import DeletionGuard.Yaml.Token.Folding

/-!
# Quoted scalars

Between single quotes only the quote itself is escaped, by writing it twice. Between double quotes
a backslash starts an escape: of a character, a code point in hexadecimal digits, or a line end.
-/

namespace DeletionGuard.Yaml

inductive QuoteStyle where
  | single
  | double
  deriving DecidableEq, Repr

def QuoteStyle.mark : QuoteStyle → Char
  | single => '\''
  | double => '"'

/-- What a backslash and `c` stand for: a character, or a code point of so many digits. -/
inductive Escape where
  | char (c : Char)
  | codePoint (digits : Nat)
  deriving DecidableEq, Repr

def Escape.ofChar? : Char → Option Escape
  | '0' => some (char (Char.ofNat 0x00))
  | 'a' => some (char (Char.ofNat 0x07))
  | 'b' => some (char (Char.ofNat 0x08))
  | 't' => some (char '\t')
  | '\t' => some (char '\t')
  | 'n' => some (char '\n')
  | 'v' => some (char (Char.ofNat 0x0B))
  | 'f' => some (char (Char.ofNat 0x0C))
  | 'r' => some (char '\r')
  | 'e' => some (char (Char.ofNat 0x1B))
  | ' ' => some (char ' ')
  | '"' => some (char '"')
  | '/' => some (char '/')
  | '\\' => some (char '\\')
  | 'N' => some (char (Char.ofNat 0x85))
  | '_' => some (char (Char.ofNat 0xA0))
  | 'L' => some (char (Char.ofNat 0x2028))
  | 'P' => some (char (Char.ofNat 0x2029))
  | 'x' => some (codePoint 2)
  | 'u' => some (codePoint 4)
  | 'U' => some (codePoint 8)
  | _ => none

/-- The text of a scalar so far, reversed, and the blanks after it. -/
structure ScalarState where
  text : List Char
  folding : Folding
  deriving DecidableEq, Repr

namespace ScalarState

/-- Appends characters behind the blanks. -/
def push (s : ScalarState) (cs : List Char) : ScalarState :=
  ⟨cs.reverse ++ (s.folding.text.reverse ++ s.text), .none⟩

end ScalarState

namespace Scan

/-- The character of an escape with so many digits, which come next. -/
def codePoint (digits : Nat) (begin : Mark) : Scan Char := do
  let _ ← peekAt (digits - 1)
  match hexNumber? digits (← Reader.here).rest with
  | none => failIn .missingHexDigit .quotedEscape begin
  | some n =>
    if (0xD800 ≤ n && n ≤ 0xDFFF) || 0x10FFFF < n then
      failIn .invalidCodePoint .quotedEscape begin
    else
      skip digits
      return Char.ofNat n

/-- What follows a backslash at `place`. -/
def escape (s : ScalarState) (place begin : Mark) : Scan ScalarState := do
  let c? ← peek
  if c?.any isBreak then
    let _ ← lineEnd
    return ⟨s.text, ⟨[], some [], []⟩⟩
  else
    match c?.bind Escape.ofChar? with
    | none => failAt .unknownEscape place .quotedEscape begin
    | some (.char c) =>
      skip 1
      return s.push [c]
    | some (.codePoint digits) =>
      skip 1
      return s.push [← codePoint digits begin]

/-- What starts with the character `c` at `place`, which is neither blank nor a line end. -/
def quotedChar (style : QuoteStyle) (s : ScalarState) (c : Char) (place begin : Mark) :
    Scan (Reader.Turn ScalarState (List Char)) := do
  if c = style.mark then
    if style = .single ∧ (← peek) = some '\'' then
      skip 1
      return .again (s.push ['\''])
    else
      return .done (s.push []).text.reverse
  else if style = .double ∧ c = '\\' then
    return .again (← escape (s.push []) place begin)
  else
    return .again (s.push [c])

/-- One character, escape or line end of a quoted scalar. -/
def quotedTurn (style : QuoteStyle) (begin : Mark) (s : ScalarState) :
    Scan (Reader.Turn ScalarState (List Char)) := do
  if ← atDocumentMark then
    failIn .documentIndicator .quotedScalar begin
  else
    let _ ← peekAt 1
    if (← peek).any isBreak then
      let text ← lineEnd
      if text = [] then
        failIn .endOfStream .quotedScalar begin
      else
        return .again { s with folding := s.folding.addBreak text }
    else
      let place ← mark
      match ← next? with
      | none => failIn .endOfStream .quotedScalar begin
      | some c =>
        if isBlank c then
          return .again { s with folding := s.folding.addBlank c }
        else
          quotedChar style s c place begin

end Scan

theorem passes_quotedTurn (style : QuoteStyle) (begin : Mark) (s : ScalarState) :
    Reader.PassesIf Reader.Turn.IsAgain (Scan.quotedTurn style begin s) := by
  refine .after _ fun b => ?_
  split
  · exact .failWith _
  refine .after _ fun _ => .after _ fun c? => ?_
  split
  · refine passes_lineEnd.bindIf fun text h => ?_
    simp only [ne_eq, Decidable.not_not] at h
    rw [if_pos h]
    exact .failWith _
  · refine .after _ fun place => passes_next?.bindIf fun c? h => ?_
    cases c? with
    | none => exact .failWith _
    | some c => exact absurd rfl h

def quotedStep (style : QuoteStyle) (begin : Mark) :
    Reader.Step Lexer Fault ScalarState (List Char) where
  turn := Scan.quotedTurn style begin
  passes := passes_quotedTurn style begin

/-- The text up to the closing quote; the opening quote stood at `begin`. -/
def Scan.quoted (style : QuoteStyle) (begin : Mark) : Scan (List Char) :=
  Reader.iterate (quotedStep style begin) ⟨[], .none⟩

end DeletionGuard.Yaml
