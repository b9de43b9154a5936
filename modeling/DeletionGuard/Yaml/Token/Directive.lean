import DeletionGuard.Yaml.Token.Property

/-!
# Directives

A directive stands on a line of its own before a document. One gives the version of the language,
the other what a tag's handle stands for.
-/

namespace DeletionGuard.Yaml

/-- The greatest number of digits in a part of a version. -/
def maxVersionDigits : Nat := 9

namespace Scan

def directiveName (begin : Mark) : Scan (List Char) := do
  let name ← takeWhile isWord
  if name.isEmpty then
    failIn .missingDirectiveName .directive begin
  else if !endOr isSpace (← peek) then
    failIn .directiveNameCharacter .directive begin
  else
    return name

def versionNumber (begin : Mark) : Scan Nat := do
  let digits := (← Reader.here).rest.takeWhile Char.isDigit
  if maxVersionDigits < digits.length then
    skip maxVersionDigits
    failIn .longVersionNumber .versionDirective begin
  else
    skip digits.length
    let _ ← peek
    match natural? 10 digits with
    | none => failIn .missingVersionNumber .versionDirective begin
    | some n => return n

def versionDirective (begin : Mark) : Scan TokenKind := do
  let _ ← takeWhile isBlank
  let major ← versionNumber begin
  if (← peek) = some '.' then
    skip 1
    return .versionDirective major (← versionNumber begin)
  else
    failIn .missingVersionPoint .versionDirective begin

def directiveHandle (begin : Mark) : Scan (List Char) := do
  if (← peek) = some '!' then
    skip 1
    handleRest
  else
    failIn .missingExclamationMark .tagDirectiveHandle begin

def tagDirective (begin : Mark) : Scan TokenKind := do
  let _ ← takeWhile isBlank
  let handle ← directiveHandle begin
  if handle ≠ ['!'] ∧ ¬ isClosedHandle handle then
    failIn .missingExclamationMark .tagDirectiveEnd begin
  else if !(← peek).any isBlank then
    failIn .missingBlank .tagDirective begin
  else
    let _ ← takeWhile isBlank
    let start ← uri true .tagDirectivePrefix begin none
    if endOr isSpace (← peek) then
      return .tagDirective (handle.flatMap charBytes) start
    else
      failIn .missingBlankOrLineEnd .tagDirective begin

/-- The directive whose mark stood at `begin`, and where it stops; its line is passed. -/
def directive (begin : Mark) : Scan (TokenKind × Mark) := do
  let name ← directiveName begin
  let kind ←
    if name = "YAML".toList then versionDirective begin
    else if name = "TAG".toList then tagDirective begin
    else failIn .unknownDirective .directive begin
  let stop ← mark
  restOfLine .directive begin
  return (kind, stop)

end Scan

end DeletionGuard.Yaml
