import DeletionGuard.Text.ControlSequence

/-!
# Styled text

Text of which parts are set off by colours and the like. A terminal knows each of these features by
a number; `render` puts the sequences that ask for the features before a part, and the one that
ends them all behind it.
-/

namespace DeletionGuard

/-- The features that a part of a text has, by their numbers. -/
abbrev Style := List Nat

namespace Style

def plain : Style := []
def bold : Style := [1]
/-- A heading is bold and underlined. -/
def heading : Style := [1, 4]
def boldRed : Style := [1, 31]
def green : Style := [32]
def yellow : Style := [33]
def blue : Style := [34]
def cyan : Style := [36]
def gray : Style := [90]

end Style

/-- A part of a text that has one style. -/
structure Span where
  text : String
  style : Style := .plain
  deriving DecidableEq, Repr

abbrev StyledText := List Span

namespace StyledText

/-- A text without features. -/
def plain (s : String) : StyledText := [⟨s, .plain⟩]

/-- The text alone. -/
def text (t : StyledText) : String :=
  String.join (t.map (·.text))

/-- The sequence that asks for a feature; zero ends all features. -/
def sequence (feature : Nat) : String :=
  "\x1b[" ++ toString feature ++ "m"

def renderSpan (s : Span) : String :=
  if s.style.isEmpty then s.text
  else String.join (s.style.map sequence) ++ s.text ++ sequence 0

/-- The text with the sequences that ask for its features. -/
def render (t : StyledText) : String :=
  String.join (t.map renderSpan)

end StyledText

end DeletionGuard
