import DeletionGuard.Yaml.Token.Source

/-!
# Anchors and tags

An anchor names a node, and an alias stands for the node of that name. A tag is a handle, which a
directive or a rule gives a meaning, and a suffix. In both parts of a tag a byte may be written as
a percent sign and two hexadecimal digits; the bytes so written must begin and go on as encoded
characters do.
-/

namespace DeletionGuard.Yaml

/-- The text of a character in a tag. -/
def charBytes (c : Char) : List UInt8 :=
  Utf8.encodeChar c

/-- The number of bytes in an encoded character that starts with this byte. -/
def encodedWidth? (byte : Nat) : Option Nat :=
  if byte < 0x80 then some 1
  else if byte < 0xC0 then none
  else if byte < 0xE0 then some 2
  else if byte < 0xF0 then some 3
  else if byte < 0xF8 then some 4
  else none

/-- Whether a byte goes on with an encoded character. -/
def isTrailing (byte : Nat) : Bool :=
  0x80 ≤ byte && byte < 0xC0

/-- Characters of a URI; some of them are allowed only where no flow mark can be meant. -/
def isUriChar (flowMarks : Bool) (c : Char) : Bool :=
  isWord c || ";/?:@&=+$.%!~*'()".contains c || (flowMarks && (c == ',' || c == '[' || c == ']'))

namespace Scan

/-- The name behind the mark of an anchor or an alias at `begin`. -/
def anchorName (activity : Activity) (begin : Mark) : Scan String := do
  let name ← takeWhile isWord
  if name.isEmpty || !endOr (fun c => isSpace c || "?:,]\x7d%@`".contains c) (← peek) then
    failIn .missingAnchorName activity begin
  else
    return String.ofList name

/-- A percent sign and the two digits behind it. -/
def octet (activity : Activity) (begin : Mark) : Scan Nat := do
  let place ← mark
  let c? ← next?
  if c?.isNone then
    failAt .missingTagOctet place activity begin
  else
    let _ ← peekAt 1
    match c?, hexNumber? 2 (← Reader.here).rest with
    | some '%', some n =>
      skip 2
      return n
    | _, _ => failAt .missingTagOctet place activity begin

/-- The `n` bytes with which an encoded character goes on. -/
def trailingOctets (activity : Activity) (begin : Mark) : Nat → Scan (List UInt8)
  | 0 => return []
  | n + 1 => do
    let place ← mark
    let byte ← octet activity begin
    if isTrailing byte then
      return byte.toUInt8 :: (← trailingOctets activity begin n)
    else
      failAt .badTrailingOctet place activity begin

/-- The bytes of an encoded character. -/
def octets (activity : Activity) (begin : Mark) : Scan (List UInt8) := do
  let place ← mark
  let byte ← octet activity begin
  match encodedWidth? byte with
  | none => failAt .badLeadingOctet place activity begin
  | some width => return byte.toUInt8 :: (← trailingOctets activity begin (width - 1))

/-- One character of a URI, behind bytes that are kept reversed. -/
def uriTurn (flowMarks : Bool) (activity : Activity) (begin : Mark) (bytes : List UInt8) :
    Scan (Reader.Turn (List UInt8) (List UInt8)) := do
  match ← peek with
  | none => return .done bytes
  | some c =>
    if c = '%' then
      return .again ((← octets activity begin).reverse ++ bytes)
    else if isUriChar flowMarks c then
      passOn ((charBytes c).reverse ++ bytes) bytes
    else
      return .done bytes

end Scan

theorem passes_octet (activity : Activity) (begin : Mark) :
    Reader.Passes (Scan.octet activity begin) := by
  refine .after _ fun place => passes_next?.bindIf fun c? h => ?_
  cases c? with
  | none => exact .failWith _
  | some c => exact absurd rfl h

theorem passes_octets (activity : Activity) (begin : Mark) :
    Reader.Passes (Scan.octets activity begin) :=
  .after _ fun _ => (passes_octet activity begin).bind _

theorem passes_uriTurn (flowMarks : Bool) (activity : Activity) (begin : Mark)
    (bytes : List UInt8) :
    Reader.PassesIf Reader.Turn.IsAgain (Scan.uriTurn flowMarks activity begin bytes) := by
  refine .after _ fun c? => ?_
  split
  · exact .pure id
  split
  · exact (passes_octets activity begin).bind _
  split
  · exact passes_passOn _ _
  · exact .pure id

def uriStep (flowMarks : Bool) (activity : Activity) (begin : Mark) :
    Reader.Step Lexer Fault (List UInt8) (List UInt8) where
  turn := Scan.uriTurn flowMarks activity begin
  passes := passes_uriTurn flowMarks activity begin

namespace Scan

/-- The bytes of a URI behind its first part; without one there must be a character. A zero byte
ends it. -/
def uri (flowMarks : Bool) (activity : Activity) (begin : Mark) (head : Option (List UInt8)) :
    Scan (List UInt8) := do
  let bytes ← Reader.iterate (uriStep flowMarks activity begin) []
  if head.isNone && bytes.isEmpty then
    failIn .missingTagUri activity begin
  else
    return (head.getD [] ++ bytes.reverse).takeWhile (· ≠ 0)

/-- The handle whose exclamation mark was just passed: a word may follow, and a closing mark. -/
def handleRest : Scan (List Char) := do
  let word ← takeWhile isWord
  if (← peek) = some '!' then
    skip 1
    return '!' :: word ++ ['!']
  else
    return '!' :: word

/-- Whether a handle is more than one exclamation mark and ends with one. -/
def isClosedHandle (handle : List Char) : Bool :=
  1 < handle.length && handle.getLast? == some '!'

/-- The handle and the suffix of the tag whose exclamation mark stood at `begin`. -/
def tagParts (begin : Mark) : Scan (List UInt8 × List UInt8) := do
  if (← peek) = some '<' then
    skip 1
    let suffix ← uri true .tagUri begin none
    if (← peek) = some '>' then
      skip 1
      return ([], suffix)
    else
      failIn .missingTagEnd .tag begin
  else
    let handle ← handleRest
    if isClosedHandle handle then
      return (handle.flatMap charBytes, ← uri false .tagUri begin none)
    else
      let suffix ← uri false .tagUri begin (some ((handle.drop 1).flatMap charBytes))
      if suffix.isEmpty then return ([], charBytes '!') else return (charBytes '!', suffix)

/-- A tag, behind which a blank must come, or a comma in a flow collection. -/
def tag (begin : Mark) : Scan TokenKind := do
  let (handle, suffix) ← tagParts begin
  let inFlow := (← Reader.here).inFlow
  if endOr (fun c => isSpace c || (inFlow && c == ',')) (← peek) then
    return .tag handle suffix
  else
    failIn .missingBlankOrLineEnd .tag begin

end Scan

end DeletionGuard.Yaml
