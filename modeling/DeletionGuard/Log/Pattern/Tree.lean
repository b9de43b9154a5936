import DeletionGuard.Log.Pattern.CharSet
import DeletionGuard.Log.Pattern.Fault

/-!
# Trees of patterns

What a pattern is made of, as it is written, with the part of it that each node stands for.
`Tree.tooDeep?` finds the first node that lies too deep.
-/

namespace DeletionGuard.Pattern

/-- A character that stands for itself. -/
structure Literal where
  extent : Extent
  char : Char
  /-- Whether it is written as the number of a byte. -/
  isByte : Bool := false
  deriving DecidableEq, Repr

/-- Letters that stand for a set of characters. -/
inductive LetterClass where
  | digit
  | space
  | word
  deriving DecidableEq, Repr

/-- What stands for one character. -/
inductive Leaf where
  | literal (l : Literal)
  | letters (extent : Extent) (kind : LetterClass) (negated : Bool)
  /-- A property of characters, by its name. -/
  | property (extent : Extent) (name : String)
  deriving DecidableEq, Repr

def Leaf.extent : Leaf → Extent
  | literal l => l.extent
  | letters e _ _ => e
  | property e _ => e

/-- What a place can be said to be of a word. -/
inductive WordMark where
  | boundary
  | noBoundary
  | start
  | stop
  /-- No character of a word comes before. -/
  | startHalf
  /-- No character of a word comes next. -/
  | stopHalf
  deriving DecidableEq, Repr

/-- What stands for a place. -/
inductive Assertion where
  | startLine
  | stopLine
  | startText
  | stopText
  | word (m : WordMark)
  deriving DecidableEq, Repr

inductive SetOperation where
  | intersection
  | difference
  | symmetricDifference
  deriving DecidableEq, Repr

/-- What stands between brackets. -/
inductive SetTree where
  | empty (extent : Extent)
  | leaf (l : Leaf)
  | range (extent : Extent) (low high : Literal)
  /-- A set that is known by a name. -/
  | named (extent : Extent) (set : CharSet) (negated : Bool)
  | bracketed (extent : Extent) (negated : Bool) (body : SetTree)
  | union (extent : Extent) (items : List SetTree)
  | operation (extent : Extent) (op : SetOperation) (left right : SetTree)

/-- Flags and whether they are set or cleared. -/
abbrev Flags := List (Char × Bool)

inductive Tree where
  | empty (extent : Extent)
  /-- Flags for what follows in the group. -/
  | flags (extent : Extent) (fs : Flags)
  | leaf (l : Leaf)
  /-- Any character, but for line ends as the flags have it. -/
  | dot (extent : Extent)
  | assertion (extent : Extent) (a : Assertion)
  | set (extent : Extent) (negated : Bool) (body : SetTree)
  /-- At least `least` times, and at most `most` times if that is given. -/
  | times (extent : Extent) (t : Tree) (least : Nat) (most : Option Nat)
  /-- A group with flags of its own; what it matches may be kept. -/
  | group (extent : Extent) (fs : Flags) (kept : Bool) (t : Tree)
  | seq (extent : Extent) (ts : List Tree)
  | either (extent : Extent) (ts : List Tree)

namespace SetTree

def extent : SetTree → Extent
  | empty e => e
  | leaf l => l.extent
  | range e _ _ => e
  | named e _ _ => e
  | bracketed e _ _ => e
  | union e _ => e
  | operation e _ _ _ => e

/-- The node for items, of which the first stands first; `p` is where they would stand. -/
def ofItems (p : Place) : List SetTree → SetTree
  | [] => empty (.empty p)
  | [t] => t
  | t :: ts => union ⟨t.extent.start, ((t :: ts).getLast?.getD t).extent.stop⟩ (t :: ts)

mutual

/-- The first node that lies too deep if it lies in `n` others. -/
def tooDeep? (n : Nat) : SetTree → Option Extent
  | empty _ => none
  | leaf _ => none
  | range _ _ _ => none
  | named _ _ _ => none
  | bracketed e _ t => if depthLimit ≤ n then some e else tooDeep? (n + 1) t
  | union e ts => if depthLimit ≤ n then some e else anyTooDeep? (n + 1) ts
  | operation e _ s t =>
    if depthLimit ≤ n then some e else (tooDeep? (n + 1) s).or (tooDeep? (n + 1) t)

def anyTooDeep? (n : Nat) : List SetTree → Option Extent
  | [] => none
  | t :: ts =>
    match tooDeep? n t with
    | some e => some e
    | none => anyTooDeep? n ts

end

end SetTree

namespace Tree

def extent : Tree → Extent
  | empty e => e
  | flags e _ => e
  | leaf l => l.extent
  | dot e => e
  | assertion e _ => e
  | set e _ _ => e
  | times e _ _ _ => e
  | group e _ _ _ => e
  | seq e _ => e
  | either e _ => e

/-- Whether something can be repeated; nothing and flags cannot. -/
def isRepeatable : Tree → Bool
  | empty _ => false
  | flags _ _ => false
  | _ => true

/-- The node for what stands one after the other. -/
def ofItems (e : Extent) : List Tree → Tree
  | [] => empty e
  | [t] => t
  | ts => seq e ts

mutual

/-- The first node that lies too deep if it lies in `n` others. -/
def tooDeep? (n : Nat) : Tree → Option Extent
  | empty _ => none
  | flags _ _ => none
  | leaf _ => none
  | dot _ => none
  | assertion _ _ => none
  | set e _ t => if depthLimit ≤ n then some e else t.tooDeep? (n + 1)
  | times e t _ _ => if depthLimit ≤ n then some e else tooDeep? (n + 1) t
  | group e _ _ t => if depthLimit ≤ n then some e else tooDeep? (n + 1) t
  | seq e ts => if depthLimit ≤ n then some e else anyTooDeep? (n + 1) ts
  | either e ts => if depthLimit ≤ n then some e else anyTooDeep? (n + 1) ts

def anyTooDeep? (n : Nat) : List Tree → Option Extent
  | [] => none
  | t :: ts =>
    match tooDeep? n t with
    | some e => some e
    | none => anyTooDeep? n ts

end

end Tree

end DeletionGuard.Pattern
