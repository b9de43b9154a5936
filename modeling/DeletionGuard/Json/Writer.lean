/-!
# Writing JSON

A tree is written as a list of pieces, without blanks between them. In a text only quotes,
backslashes and the characters below the space are escaped.
-/

namespace DeletionGuard.Json

/-- A JSON value. Numbers do not occur in what is written. -/
inductive Tree where
  | null
  | boolean (b : Bool)
  | text (s : String)
  | list (items : List Tree)
  | object (members : List (String × Tree))

namespace Tree

def fourHexDigits (n : Nat) : String :=
  String.ofList ([n / 0x1000, n / 0x100, n / 0x10, n].map fun d => Nat.digitChar (d % 0x10))

/-- How a character is written inside a text. -/
def escapeChar (c : Char) : String :=
  if c = '"' then "\\\""
  else if c = '\\' then "\\\\"
  else if c = Char.ofNat 0x08 then "\\b"
  else if c = '\t' then "\\t"
  else if c = '\n' then "\\n"
  else if c = Char.ofNat 0x0C then "\\f"
  else if c = '\r' then "\\r"
  else if c.toNat < 0x20 then "\\u" ++ fourHexDigits c.toNat
  else c.toString

def textPieces (s : String) : List String :=
  "\"" :: s.toList.map escapeChar ++ ["\""]

mutual

/-- The pieces of a value, in the order in which they are written. -/
def pieces : Tree → List String
  | null => ["null"]
  | boolean b => [if b then "true" else "false"]
  | text s => textPieces s
  | list items => "[" :: listPieces items ++ ["]"]
  | object members => "\x7b" :: memberPieces members ++ ["\x7d"]

/-- The pieces of values with commas between them. -/
def listPieces : List Tree → List String
  | [] => []
  | [t] => t.pieces
  | t :: ts => t.pieces ++ "," :: listPieces ts

/-- The pieces of members with commas between them. -/
def memberPieces : List (String × Tree) → List String
  | [] => []
  | [(key, t)] => textPieces key ++ ":" :: t.pieces
  | (key, t) :: ms => textPieces key ++ ":" :: t.pieces ++ "," :: memberPieces ms

end

end Tree

end DeletionGuard.Json
