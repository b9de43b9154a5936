/-!
# Faults in a YAML stream

A fault names a problem and its place, and mostly also what was being done when it was found and
where that began. Places are told by line and column; only a character that may not occur at all is named
by the number of bytes before it.
-/

namespace DeletionGuard.Yaml

/-- A place in a text: how many bytes, lines and characters of the line precede it. -/
structure Mark where
  index : Nat
  line : Nat
  column : Nat
  deriving DecidableEq, Repr

namespace Mark

def start : Mark := ⟨0, 0, 0⟩

/-- The place behind these characters on the same line. -/
def forward (m : Mark) (cs : List Char) : Mark :=
  ⟨cs.foldl (fun n c => n + c.utf8Size) m.index, m.line, m.column + cs.length⟩

/-- The start of the next line, behind a line end of `n` bytes. -/
def nextLine (m : Mark) (n : Nat) : Mark :=
  ⟨m.index + n, m.line + 1, 0⟩

/-- Whether a place is the very beginning of the text, which is not named in messages. -/
def isStart (m : Mark) : Bool :=
  m.line == 0 && m.column == 0

def phrase (m : Mark) : String :=
  "line " ++ toString (m.line + 1) ++ " column " ++ toString (m.column + 1)

/-- A place behind the word that leads to it, or nothing for the beginning of the text. -/
def suffix (m : Mark) : String :=
  if m.isStart then "" else " at " ++ m.phrase

end Mark

/-- What is being read when a fault is found. -/
inductive Activity where
  | nextToken
  | simpleKey
  | directive
  | versionDirective
  | tagDirective
  | tagDirectiveHandle
  | tagDirectivePrefix
  | tagDirectiveEnd
  | anchor
  | alias
  | tag
  | tagUri
  | blockScalar
  | quotedScalar
  | quotedEscape
  | plainScalar
  | node
  | blockNode
  | flowNode
  | blockSequence
  | blockMapping
  | flowSequence
  | flowMapping
  deriving DecidableEq, Repr

def Activity.phrase : Activity → String
  | nextToken => "while scanning for the next token"
  | simpleKey => "while scanning a simple key"
  | directive => "while scanning a directive"
  | versionDirective => "while scanning a %YAML directive"
  | tagDirective => "while scanning a %TAG directive"
  | tagDirectiveHandle => "while scanning a tag directive"
  | tagDirectivePrefix => "while parsing a %TAG directive"
  | tagDirectiveEnd => "while parsing a tag directive"
  | anchor => "while scanning an anchor"
  | .alias => "while scanning an alias"
  | tag => "while scanning a tag"
  | tagUri => "while parsing a tag"
  | blockScalar => "while scanning a block scalar"
  | quotedScalar => "while scanning a quoted scalar"
  | quotedEscape => "while parsing a quoted scalar"
  | plainScalar => "while scanning a plain scalar"
  | node => "while parsing a node"
  | blockNode => "while parsing a block node"
  | flowNode => "while parsing a flow node"
  | blockSequence => "while parsing a block collection"
  | blockMapping => "while parsing a block mapping"
  | flowSequence => "while parsing a flow sequence"
  | flowMapping => "while parsing a flow mapping"

inductive Problem where
  | controlCharacter
  | noTokenStart
  | missingColon
  | entryNotAllowed
  | keyNotAllowed
  | valueNotAllowed
  | unknownDirective
  | missingDirectiveName
  | directiveNameCharacter
  | missingLineEnd
  | longVersionNumber
  | missingVersionNumber
  | missingVersionPoint
  | missingBlank
  | missingBlankOrLineEnd
  | missingExclamationMark
  | missingTagUri
  | missingTagOctet
  | badLeadingOctet
  | badTrailingOctet
  | missingTagEnd
  | missingAnchorName
  | zeroIndentation
  | tabInIndentation
  | tabBeforePlain
  | documentIndicator
  | endOfStream
  | unknownEscape
  | missingHexDigit
  | invalidCodePoint
  | unexpectedColon
  | missingDocumentStart
  | duplicateVersion
  | incompatibleVersion
  | duplicateTagDirective
  | undefinedTagHandle
  | missingNode
  | missingDash
  | missingKey
  | missingSequenceComma
  | missingMappingComma
  deriving DecidableEq, Repr

def Problem.message : Problem → String
  | controlCharacter => "control characters are not allowed"
  | noTokenStart => "found character that cannot start any token"
  | missingColon => "could not find expected ':'"
  | entryNotAllowed => "block sequence entries are not allowed in this context"
  | keyNotAllowed => "mapping keys are not allowed in this context"
  | valueNotAllowed => "mapping values are not allowed in this context"
  | unknownDirective => "found unknown directive name"
  | missingDirectiveName => "could not find expected directive name"
  | directiveNameCharacter => "found unexpected non-alphabetical character"
  | missingLineEnd => "did not find expected comment or line break"
  | longVersionNumber => "found extremely long version number"
  | missingVersionNumber => "did not find expected version number"
  | missingVersionPoint => "did not find expected digit or '.' character"
  | missingBlank => "did not find expected whitespace"
  | missingBlankOrLineEnd => "did not find expected whitespace or line break"
  | missingExclamationMark => "did not find expected '!'"
  | missingTagUri => "did not find expected tag URI"
  | missingTagOctet => "did not find URI escaped octet"
  | badLeadingOctet => "found an incorrect leading UTF-8 octet"
  | badTrailingOctet => "found an incorrect trailing UTF-8 octet"
  | missingTagEnd => "did not find the expected '>'"
  | missingAnchorName => "did not find expected alphabetic or numeric character"
  | zeroIndentation => "found an indentation indicator equal to 0"
  | tabInIndentation => "found a tab character where an indentation space is expected"
  | tabBeforePlain => "found a tab character that violates indentation"
  | documentIndicator => "found unexpected document indicator"
  | endOfStream => "found unexpected end of stream"
  | unknownEscape => "found unknown escape character"
  | missingHexDigit => "did not find expected hexadecimal number"
  | invalidCodePoint => "found invalid Unicode character escape code"
  | unexpectedColon => "found unexpected ':'"
  | missingDocumentStart => "did not find expected <document start>"
  | duplicateVersion => "found duplicate %YAML directive"
  | incompatibleVersion => "found incompatible YAML document"
  | duplicateTagDirective => "found duplicate %TAG directive"
  | undefinedTagHandle => "found undefined tag handle"
  | missingNode => "did not find expected node content"
  | missingDash => "did not find expected '-' indicator"
  | missingKey => "did not find expected key"
  | missingSequenceComma => "did not find expected ',' or ']'"
  | missingMappingComma => "did not find expected ',' or '\x7d'"

/-- Where the problem of a fault lies. -/
inductive Place where
  | mark (m : Mark)
  | byte (offset : Nat)
  deriving DecidableEq, Repr

/-- The words that lead to a place, if it is named. -/
def Place.suffix : Place → String
  | mark m => m.suffix
  | byte offset => if offset = 0 then "" else " at position " ++ toString offset

structure Fault where
  problem : Problem
  place : Place
  /-- What was being read, and where that began. -/
  context : Option (Activity × Mark) := none
  deriving DecidableEq, Repr

namespace Fault

/-- A beginning is named unless it is the beginning of the text or the place of the problem. -/
def contextSuffix (place : Place) (begin : Mark) : String :=
  match place with
  | .mark m => if m.line = begin.line ∧ m.column = begin.column then "" else begin.suffix
  | .byte _ => begin.suffix

def message (f : Fault) : String :=
  f.problem.message ++ f.place.suffix ++
    match f.context with
    | none => ""
    | some (activity, begin) => ", " ++ activity.phrase ++ contextSuffix f.place begin

end Fault

end DeletionGuard.Yaml
