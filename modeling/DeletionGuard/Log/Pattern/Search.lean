import DeletionGuard.Log.Pattern.Expression

/-!
# Searching texts

The places of a text stand before, between and behind its characters. A set of places is a number
of which bit `i` tells whether place `i` belongs to it, so that an expression can be followed from
all places at once. `Expression.isIn` tells whether a text holds a match.
-/

namespace DeletionGuard.Pattern

/-- The characters on both sides of a place. -/
structure Neighbours where
  before : Option Char
  behind : Option Char
  deriving DecidableEq, Repr

namespace Neighbours

/-- All places of a text that `before` comes before. -/
def ofText (before : Option Char) : List Char → List Neighbours
  | [] => [⟨before, none⟩]
  | c :: cs => ⟨before, some c⟩ :: ofText (some c) cs

def startsLine (n : Neighbours) (carriageReturns : Bool) : Bool :=
  match n.before with
  | none => true
  | some c => c == '\n' || (carriageReturns && c == '\r' && n.behind != some '\n')

def stopsLine (n : Neighbours) (carriageReturns : Bool) : Bool :=
  match n.behind with
  | none => true
  | some c =>
    if carriageReturns then c == '\r' || (c == '\n' && n.before != some '\r') else c == '\n'

def isMarked (n : Neighbours) (m : WordMark) : Bool :=
  let before := n.before.any CharSet.wordChars.contains
  let behind := n.behind.any CharSet.wordChars.contains
  match m with
  | .boundary => before != behind
  | .noBoundary => before == behind
  | .start => !before && behind
  | .stop => before && !behind
  | .startHalf => !before
  | .stopHalf => !behind

def holds (n : Neighbours) : Look → Bool
  | .startText => n.before.isNone
  | .stopText => n.behind.isNone
  | .startLine carriageReturns => n.startsLine carriageReturns
  | .stopLine carriageReturns => n.stopsLine carriageReturns
  | .word _ m => n.isMarked m

end Neighbours

/-- Sets of places, of which place `i` is bit `i`. -/
abbrev Places := Nat

/-- The places whose turn in a list is true. -/
def Places.ofBools (bs : List Bool) : Places :=
  bs.foldr (fun b n => 2 * n + b.toNat) 0

/-- The places at which something can be gone through, which leads on by some places. -/
structure Gate where
  places : Places
  width : Nat
  deriving DecidableEq, Repr

def Gate.pass (g : Gate) (ps : Places) : Places :=
  (ps &&& g.places) <<< g.width

/-- The gate of an atom in a text with these places. -/
def Atom.gate (ns : List Neighbours) : Atom → Gate
  | .chars s => ⟨.ofBools (ns.map (·.behind.any s.contains)), 1⟩
  | .look l => ⟨.ofBools (ns.map (·.holds l)), 0⟩

/-! ## Repetition -/

/-- Takes `n` rounds, or fewer if nothing would change any more. -/
def rounds (step : Places → Places) : Nat → Places → Places
  | 0, ps => ps
  | n + 1, ps =>
    let next := step ps
    if next = ps then ps else rounds step n next

/-- The places that are reached in up to `n` rounds. -/
def closure (step : Places → Places) (n : Nat) (ps : Places) : Places :=
  rounds (fun qs => qs ||| step qs) n ps

namespace Expression

mutual

/-- Puts something else in the place of atoms. -/
def map (f : α → β) : Expression α → Expression β
  | empty => empty
  | atom a => atom (f a)
  | seq ps => seq (mapAll f [] ps)
  | either ps => either (mapAll f [] ps)
  | times p least most => times (map f p) least most
  | kept p => kept (map f p)

/-- The same for expressions behind others, which are reversed. -/
def mapAll (f : α → β) (before : List (Expression β)) : List (Expression α) → List (Expression β)
  | [] => before.reverse
  | p :: ps => mapAll f (map f p :: before) ps

end

mutual

/-- The places where a match can stop that starts at one of `ps`; `length` is the number of all. -/
def follow (length : Nat) : Expression Gate → Places → Places
  | empty, ps => ps
  | atom g, ps => g.pass ps
  | seq es, ps => followAll length es ps
  | either es, ps => followAny length es ps 0
  | times e least most, ps =>
    let further := match most with
      | some n => n - least
      | none => length
    closure (follow length e) further (rounds (follow length e) least ps)
  | kept e, ps => follow length e ps

def followAll (length : Nat) : List (Expression Gate) → Places → Places
  | [], ps => ps
  | e :: es, ps => followAll length es (follow length e ps)

/-- Follows each of some expressions, and adds what they lead to. -/
def followAny (length : Nat) : List (Expression Gate) → Places → Places → Places
  | [], _, found => found
  | e :: es, ps, found => followAny length es ps (found ||| follow length e ps)

end

/-- Whether a text holds a match. -/
def isIn (e : Expression Atom) (text : String) : Bool :=
  let ns := Neighbours.ofText none text.toList
  let all := Places.ofBools (ns.map fun _ => true)
  (e.map (Atom.gate ns)).follow ns.length all != 0

end Expression

end DeletionGuard.Pattern
