import DeletionGuard.Log.Pattern.Escape

/-!
# Sets between brackets

Sets can lie in one another and be combined by operations, each of which takes all that stands to
the left of it. The sets that are open are kept on a stack.
-/

namespace DeletionGuard.Pattern

/-- A set of which the opening bracket has been read. -/
structure OpenSet where
  start : Place
  /-- Where its bracket ends, with what belongs to it. -/
  opened : Place
  negated : Bool
  /-- Where its items start, or those behind the last operation. -/
  itemsStart : Place
  /-- The items, reversed. -/
  items : List SetTree := []
  /-- An operation that has what stands to the left of it. -/
  pending : Option (SetOperation × SetTree) := none

namespace OpenSet

/-- What a set is blamed for that does not end. -/
def extent (s : OpenSet) : Extent :=
  ⟨s.start, s.opened⟩

def add (s : OpenSet) (t : SetTree) : OpenSet :=
  { s with items := t :: s.items }

/-- What has been read of a set. -/
def body (s : OpenSet) : SetTree :=
  let t := SetTree.ofItems s.itemsStart s.items.reverse
  match s.pending with
  | none => t
  | some (op, left) => .operation ⟨left.extent.start, t.extent.stop⟩ op left t

/-- Begins the right side of an operation at `p`. -/
def operate (s : OpenSet) (op : SetOperation) (p : Place) : OpenSet :=
  { s with itemsStart := p, items := [], pending := some (op, s.body) }

end OpenSet

/-- The operation that a sign stands for which comes twice. -/
def setOperation? : Char → Option SetOperation
  | '&' => some .intersection
  | '-' => some .difference
  | '~' => some .symmetricDifference
  | _ => none

/-- The named set behind an opening bracket, whether it is negated, and its length there. -/
def namedSet? : List Char → Option (CharSet × Bool × Nat)
  | ':' :: cs =>
    let negated := cs.head? = some '^'
    let cs := if negated then cs.drop 1 else cs
    let name := cs.takeWhile (· ≠ ':')
    if (cs.drop name.length).take 2 = [':', ']'] then
      (CharSet.named.lookup (String.ofList name)).map fun set =>
        (set, negated, name.length + if negated then 4 else 3)
    else none
  | _ => none

/-- The first character that is neither a blank nor the number sign of a comment; if there is none,
the first of all. -/
def glance (cs : List Char) : Option Char :=
  match cs.dropWhile Text.isBlank with
  | '#' :: rest => (rest.dropWhile Text.isBlank).head?.or cs.head?
  | rest => rest.head?.or cs.head?

def Escape.setTree : Escape → Except Fault SetTree
  | leaf l => .ok (.leaf l)
  | assertion e _ => .error ⟨.badSetEscape, e, none⟩

/-- The end of a range. -/
def Escape.literal : Escape → Except Fault Literal
  | leaf (.literal l) => .ok l
  | e => .error ⟨.badRangeEnd, e.extent, none⟩

namespace Read

def ofExcept (r : Except Fault α) : Read α :=
  match r with
  | .ok a => return a
  | .error f => Reader.failWith fun _ => f

/-- Fails if nothing is left. -/
def expectMore (f : Fault) : Read Unit := do
  if (← rest).isEmpty then Reader.failWith fun _ => f

/-- A dash at the start of a set, behind others that are kept reversed. -/
def leadingDashTurn (unclosed : Fault) (dashes : List SetTree) :
    Read (Reader.Turn (List SetTree) (List SetTree)) := do
  let p ← place
  if (← peek) = some '-' then
    match ← next? with
    | none => return .done dashes
    | some _ =>
      skipBlanks
      expectMore unclosed
      return .again (.leaf (.literal ⟨.char p '-', '-', false⟩) :: dashes)
  else
    return .done dashes

end Read

theorem passes_leadingDashTurn (unclosed : Fault) (dashes : List SetTree) :
    Reader.PassesIf Reader.Turn.IsAgain (Read.leadingDashTurn unclosed dashes) := by
  refine .after _ fun p => .after _ fun c? => ?_
  split
  · exact PassesIf.ofNext (.pure id)
  · exact .pure id

def leadingDashStep (unclosed : Fault) :
    Reader.Step Cursor Fault (List SetTree) (List SetTree) where
  turn := Read.leadingDashTurn unclosed
  passes := passes_leadingDashTurn unclosed

namespace Read

/-- Passes a character that has been looked at in the bracket of a set. More must follow. -/
def passInBracket (start : Place) : Read Unit := do
  passOn
  expectMore ⟨.unclosedSet, ⟨start, ← place⟩, none⟩

/-- The rest of the bracket that opens a set at `start`. Dashes stand for themselves here, and so
does a closing bracket that comes first. -/
def openSet (start : Place) : Read OpenSet := do
  skipBlanks
  expectMore ⟨.unclosedSet, ⟨start, ← place⟩, none⟩
  let negated := (← peek) = some '^'
  if negated then passInBracket start
  let itemsStart ← place
  let dashes ← Reader.iterate (leadingDashStep ⟨.unclosedSet, .empty start, none⟩) []
  let p ← place
  if dashes.isEmpty && (← peek) = some ']' then
    passInBracket start
    let bracket := SetTree.leaf (.literal ⟨.char p ']', ']', false⟩)
    return ⟨start, ← place, negated, itemsStart, [bracket], none⟩
  else
    return ⟨start, p, negated, itemsStart, dashes, none⟩

/-- What a character of a set stands for that has been passed. -/
def setChar (p : Place) (c : Char) : Read Escape := do
  if c = '\\' then escape p else return .leaf (.literal ⟨.char p c, c, false⟩)

/-- An item of a set, or a range if a dash follows that neither ends the set nor comes twice. -/
def setItem (unclosed : Fault) (p : Place) (c : Char) : Read SetTree := do
  let low ← setChar p c
  skipBlanks
  expectMore unclosed
  let more := (← rest).drop 1
  let beyond := if (← Reader.here).spaced then glance more else more.head?
  if (← peek) ≠ some '-' || beyond = some ']' || beyond = some '-' then
    ofExcept low.setTree
  else
    passOn
    let q ← place
    match ← next? with
    | none => Reader.failWith fun _ => unclosed
    | some d =>
      let high ← setChar q d
      let extent : Extent := ⟨low.extent.start, high.extent.stop⟩
      let low ← ofExcept low.literal
      let high ← ofExcept high.literal
      if low.char ≤ high.char then
        return .range extent low high
      else
        fail .reversedRange extent

end Read

/-- The sets that are open, the innermost first. -/
structure OpenSets where
  inner : OpenSet
  outer : List OpenSet := []

namespace OpenSets

def unclosed (s : OpenSets) : Fault :=
  ⟨.unclosedSet, s.inner.extent, none⟩

def add (s : OpenSets) (t : SetTree) : OpenSets :=
  { s with inner := s.inner.add t }

/-- Closes the innermost set; `p` is behind its bracket. -/
def close (s : OpenSets) (p : Place) : Reader.Turn OpenSets Tree :=
  let extent : Extent := ⟨s.inner.start, p⟩
  match s.outer with
  | [] => .done (.set extent s.inner.negated s.inner.body)
  | outer :: rest =>
    .again ⟨outer.add (.bracketed extent s.inner.negated s.inner.body), rest⟩

/-- What a character at `p` between brackets begins. -/
def read (s : OpenSets) (p : Place) (c : Char) : Read (Reader.Turn OpenSets Tree) := do
  match setOperation? c with
  | some op =>
    if (← Read.peek) = some c then
      Read.pass
      return .again { s with inner := s.inner.operate op (← Read.place) }
    else
      return .again (s.add (← Read.setItem s.unclosed p c))
  | none =>
    if c = ']' then
      return s.close (← Read.place)
    else if c = '[' then
      match namedSet? (← Read.rest) with
      | some (set, negated, length) =>
        Read.skip length
        return .again (s.add (.named ⟨p, ← Read.place⟩ set negated))
      | none => return .again ⟨← Read.openSet p, s.inner :: s.outer⟩
    else
      return .again (s.add (← Read.setItem s.unclosed p c))

def turn (s : OpenSets) : Read (Reader.Turn OpenSets Tree) := do
  Read.skipBlanks
  let p ← Read.place
  match ← Read.next? with
  | none => Reader.failWith fun _ => s.unclosed
  | some c => s.read p c

end OpenSets

theorem passes_setTurn (s : OpenSets) : Reader.PassesIf Reader.Turn.IsAgain s.turn :=
  .after _ fun _ => .after _ fun _ => PassesIf.ofNext (.failWith _)

def setStep : Reader.Step Cursor Fault OpenSets Tree where
  turn := OpenSets.turn
  passes := passes_setTurn

/-- The set of which the opening bracket at `start` has been passed. -/
def Read.set (start : Place) : Read Tree := do
  Reader.iterate setStep ⟨← openSet start, []⟩

end DeletionGuard.Pattern
