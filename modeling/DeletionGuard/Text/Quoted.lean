import DeletionGuard.Text.Invisible

/-!
# Quoted text

Text between double quotes, as diagnostics show it: quotes and backslashes are escaped, the common
controls have short escapes, and a character that does not show by itself is written as its code
point.
-/

namespace DeletionGuard.Text

/-- The lower-case hexadecimal digits of `n`. -/
def hex (n : Nat) : String :=
  String.ofList (Nat.toDigits 16 n)

def escapeCodePoint (c : Char) : String :=
  "\\u\x7b" ++ hex c.toNat ++ "\x7d"

/-- One character between quotes; `apostrophe` tells whether that mark is escaped too. -/
def escapeChar (apostrophe : Bool) (c : Char) : String :=
  if c = Char.ofNat 0 then "\\0"
  else if c = '\t' then "\\t"
  else if c = '\r' then "\\r"
  else if c = '\n' then "\\n"
  else if c = '\\' then "\\\\"
  else if c = '"' then "\\\""
  else if c = '\'' && apostrophe then "\\'"
  else if isInvisible c then escapeCodePoint c
  else c.toString

def quoteWith (apostrophe : Bool) (s : String) : String :=
  "\"" ++ String.join (s.toList.map (escapeChar apostrophe)) ++ "\""

def quote (s : String) : String :=
  quoteWith false s

/-- A path in quotes, where apostrophes are escaped as well. -/
def quotePath (s : String) : String :=
  quoteWith true s

/-- Texts in quotes, between brackets. -/
def quoteList (ss : List String) : String :=
  "[" ++ ", ".intercalate (ss.map quote) ++ "]"

end DeletionGuard.Text
