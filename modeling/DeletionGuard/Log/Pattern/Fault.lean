import DeletionGuard.Log.Pattern.Place

/-!
# Faults of patterns

What can be wrong with a pattern, and the message about it: the pattern, with marks under the part
that is at fault, and the reason.
-/

namespace DeletionGuard.Pattern

/-- How deep the parts of a pattern may lie in one another. -/
def depthLimit : Nat := 250

inductive Cause where
  | badRangeEnd
  | reversedRange
  | badSetEscape
  | unclosedSet
  | badDecimal
  | badHexDigit
  | badHexNumber
  | noHexNumber
  | endInEscape
  | unknownEscape
  | danglingNegation
  | repeatedFlag
  | repeatedNegation
  | endInFlags
  | unknownFlag
  | repeatedName
  | noName
  | badNameCharacter
  | unclosedName
  | unclosedGroup
  | unopenedGroup
  | tooDeep
  | reversedCount
  | noCount
  | unclosedCount
  | nothingToRepeat
  | unclosedWordMark
  | unknownWordMark
  | endInWordMark
  | badProperty
  | backreference
  | lookAround
  | invalidUtf8
  | unicodeNotAllowed
  | noSuchProperty
  | noSuchPropertyValue
  | noLetterClasses
  | noCases
  deriving DecidableEq, Repr

def Cause.message : Cause → String
  | badRangeEnd => "invalid range boundary, must be a literal"
  | reversedRange => "invalid character class range, the start must be <= the end"
  | badSetEscape => "invalid escape sequence found in character class"
  | unclosedSet => "unclosed character class"
  | badDecimal => "decimal literal invalid"
  | badHexDigit => "invalid hexadecimal digit"
  | badHexNumber => "hexadecimal literal is not a Unicode scalar value"
  | noHexNumber => "hexadecimal literal empty"
  | endInEscape => "incomplete escape sequence, reached end of pattern prematurely"
  | unknownEscape => "unrecognized escape sequence"
  | danglingNegation => "dangling flag negation operator"
  | repeatedFlag => "duplicate flag"
  | repeatedNegation => "flag negation operator repeated"
  | endInFlags => "expected flag but got end of regex"
  | unknownFlag => "unrecognized flag"
  | repeatedName => "duplicate capture group name"
  | noName => "empty capture group name"
  | badNameCharacter => "invalid capture group character"
  | unclosedName => "unclosed capture group name"
  | unclosedGroup => "unclosed group"
  | unopenedGroup => "unopened group"
  | tooDeep =>
    "exceed the maximum number of nested parentheses/brackets (" ++ toString depthLimit ++ ")"
  | reversedCount => "invalid repetition count range, the start must be <= the end"
  | noCount => "repetition quantifier expects a valid decimal"
  | unclosedCount => "unclosed counted repetition"
  | nothingToRepeat => "repetition operator missing expression"
  | unclosedWordMark =>
    "special word boundary assertion is either unclosed or contains an invalid character"
  | unknownWordMark =>
    "unrecognized special word boundary assertion, valid choices are: start, end, start-half " ++
      "or end-half"
  | endInWordMark =>
    "found either the beginning of a special word boundary or a bounded repetition on a \\b with " ++
      "an opening brace, but no closing brace"
  | badProperty => "invalid Unicode character class"
  | backreference => "backreferences are not supported"
  | lookAround => "look-around, including look-ahead and look-behind, is not supported"
  | invalidUtf8 => "pattern can match invalid UTF-8"
  | unicodeNotAllowed => "Unicode not allowed here"
  | noSuchProperty => "Unicode property not found"
  | noSuchPropertyValue => "Unicode property value not found"
  | noLetterClasses =>
    "Unicode-aware Perl class not found (make sure the unicode-perl feature is enabled)"
  | noCases =>
    "Unicode-aware case insensitivity matching is not available (make sure the unicode-case " ++
      "feature is enabled)"

structure Fault where
  cause : Cause
  extent : Extent
  /-- An earlier part that this one repeats. -/
  earlier : Option Extent := none
  deriving DecidableEq, Repr

namespace Fault

/-- The lines of a text; a line feed at the end begins no line. -/
def linesOf (source : String) : List String :=
  let parts := source.splitOn "\n"
  let whole := parts.dropLast.map fun line =>
    let cs := line.toList
    if cs.getLast? = some '\r' then String.ofList cs.dropLast else line
  whole ++ (parts.drop whole.length).filter (· ≠ "")

/-- Puts marks behind what has been written under a line, which is `column` characters wide. -/
def mark (written : String × Nat) (e : Extent) : String × Nat :=
  let gap := e.start.column - 1 - written.2
  let width := max 1 (e.stop.column - e.start.column)
  (written.1 ++ String.ofList (List.replicate gap ' ' ++ List.replicate width '^'),
    written.2 + gap + width)

/-- A line of a pattern behind its head, and the marks that stand under it. -/
def markedLine (head line : String) (es : List Extent) : String :=
  let blanks := String.ofList (List.replicate head.length ' ')
  head ++ line ++ "\n" ++
    if es.isEmpty then "" else (es.foldl mark (blanks, 0)).1 ++ "\n"

/-- What comes before line `n` of a pattern with so many lines; a single line has no number. -/
def lineHead (lines n : Nat) : String :=
  if lines ≤ 1 then "    "
  else
    let number := toString n
    String.ofList (List.replicate ((toString lines).length - number.length) ' ') ++ number ++ ": "

/-- The parts at fault, in their order. -/
def extents (f : Fault) : List Extent :=
  match f.earlier with
  | none => [f.extent]
  | some e => if e.start.le f.extent.start then [e, f.extent] else [f.extent, e]

def lineNote (e : Extent) : String :=
  "on line " ++ toString e.start.line ++ " (column " ++ toString e.start.column ++
    ") through line " ++ toString e.stop.line ++ " (column " ++ toString (e.stop.column - 1) ++ ")\n"

/-- The fault under the pattern that it is found in. -/
def message (f : Fault) (source : String) : String :=
  let lines := linesOf source
  let count := lines.length + if source.toList.getLast? = some '\n' then 1 else 0
  let marked := String.join (lines.zipIdx.map fun (line, i) =>
    markedLine (lineHead count (i + 1)) line
      (f.extents.filter fun e => e.isOneLine && e.start.line == i + 1))
  let divider := if source.contains '\n' then String.ofList (List.replicate 79 '~') ++ "\n" else ""
  "regex parse error:\n" ++ divider ++ marked ++ divider ++
    String.join ((f.extents.filter fun e => !e.isOneLine).map lineNote) ++
    "error: " ++ f.cause.message

end Fault

end DeletionGuard.Pattern
