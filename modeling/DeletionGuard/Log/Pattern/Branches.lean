import DeletionGuard.Log.Pattern.Bracket
import DeletionGuard.Text.Letter

/-!
# Branches and groups

A pattern is a row of branches, and so is what stands in a group. The groups that are open are kept
on a stack. `Tree.ofText` reads a pattern.
-/

namespace DeletionGuard.Pattern

/-- What has been read of a row of branches. -/
structure Branches where
  start : Place := {}
  /-- The branches before the last, reversed. -/
  before : List Tree := []
  /-- Where the last branch starts. -/
  lastStart : Place := {}
  /-- The items of the last branch, reversed. -/
  items : List Tree := []

namespace Branches

/-- No branch yet, at a place. -/
def startingAt (p : Place) : Branches :=
  { start := p, lastStart := p }

def add (b : Branches) (t : Tree) : Branches :=
  { b with items := t :: b.items }

/-- The last branch, which stops at `p`. -/
def last (b : Branches) (p : Place) : Tree :=
  Tree.ofItems ⟨b.lastStart, p⟩ b.items.reverse

/-- Begins another branch behind the bar at `p`. -/
def next (b : Branches) (p : Place) : Branches :=
  { b with before := b.last p :: b.before, lastStart := p.after '|', items := [] }

/-- All branches, of which the last one stops at `p`. -/
def tree (b : Branches) (p : Place) : Tree :=
  if b.before.isEmpty then b.last p else .either ⟨b.start, p⟩ (b.last p :: b.before).reverse

end Branches

/-- A group of which the opening bracket has been read. -/
structure OpenGroup where
  start : Place
  flags : Flags
  kept : Bool
  /-- What the group stands in, and whether that is spaced. -/
  outer : Branches
  spaced : Bool

/-- What has been read of a pattern. -/
structure Draft where
  inner : Branches := {}
  outer : List OpenGroup := []
  /-- The names of groups. -/
  names : List (String × Extent) := []

/-! ## Flags -/

/-- The sign that clears the flags behind it. -/
def flagNegation : Char := '-'

def isFlag (c : Char) : Bool :=
  "imsuURx".contains c

/-- Flags in their order; those behind the sign of negation are cleared. -/
def flagsOf (value : Bool) : List Char → Flags
  | [] => []
  | c :: cs => if c = flagNegation then flagsOf false cs else (c, value) :: flagsOf value cs

namespace Read

/-- One more flag or sign behind others, which are kept reversed; a colon or a closing bracket ends
them. -/
def flagTurn (seen : List (Char × Place)) :
    Read (Reader.Turn (List (Char × Place)) (Char × Flags)) := do
  let p ← place
  match ← next? with
  | none => fail .endInFlags (.empty p)
  | some c =>
    if c = ':' || c = ')' then
      match seen with
      | (d, q) :: _ =>
        if d = flagNegation then fail .danglingNegation (.char q d)
        else return .done (c, flagsOf true (seen.reverse.map Prod.fst))
      | [] => return .done (c, [])
    else if c ≠ flagNegation && !isFlag c then
      fail .unknownFlag (.char p c)
    else
      match seen.lookup c with
      | some q =>
        let cause := if c = flagNegation then Cause.repeatedNegation else .repeatedFlag
        Reader.failWith fun _ => ⟨cause, .char p c, some (.char q c)⟩
      | none => return .again ((c, p) :: seen)

end Read

theorem passes_flagTurn (seen : List (Char × Place)) :
    Reader.PassesIf Reader.Turn.IsAgain (Read.flagTurn seen) :=
  .after _ fun _ => PassesIf.ofNext (.failWith _)

def flagStep : Reader.Step Cursor Fault (List (Char × Place)) (Char × Flags) where
  turn := Read.flagTurn
  passes := passes_flagTurn

/-! ## Groups -/

/-- The letters of a name; the first one cannot be a number or one of some signs. -/
def nameOf (first : Bool) : List Char → List Char
  | [] => []
  | c :: cs =>
    if c = '_' || (if first then Text.isLetter c else
        c = '.' || c = '[' || c = ']' || Text.isLetterOrNumber c) then
      c :: nameOf false cs
    else []

/-- What the opening bracket of a group turns out to be. -/
inductive GroupStart where
  /-- Flags for what follows. -/
  | flags (fs : Flags)
  | group (fs : Flags) (kept : Bool) (name : Option (String × Extent))

namespace Read

/-- A group's name and the sign that ends it. -/
def groupName (names : List (String × Extent)) : Read (String × Extent) := do
  let start ← place
  let name := nameOf true (← rest)
  skip name.length
  match ← peek with
  | none => failHere .unclosedName
  | some '>' =>
    let extent : Extent := ⟨start, ← place⟩
    pass
    if name.isEmpty then
      fail .noName (.empty start)
    else
      let name := String.ofList name
      match names.lookup name with
      | some earlier => Reader.failWith fun _ => ⟨.repeatedName, extent, some earlier⟩
      | none => return (name, extent)
  | some c => failAt .badNameCharacter c

/-- The signs of groups that look around, which are not supported. -/
def lookAroundSigns : List (List Char) :=
  [['?', '='], ['?', '!'], ['?', '<', '='], ['?', '<', '!']]

/-- The rest of the opening bracket of a group at `start`. -/
def groupStart (names : List (String × Extent)) (start : Place) : Read GroupStart := do
  skipBlanks
  let cs ← rest
  match lookAroundSigns.find? (·.isPrefixOf cs) with
  | some sign =>
    skip sign.length
    failSince .lookAround start
  | none =>
    match cs with
    | '?' :: 'P' :: '<' :: _ =>
      skip 3
      return .group [] true (some (← groupName names))
    | '?' :: '<' :: _ =>
      skip 2
      return .group [] true (some (← groupName names))
    | '?' :: _ =>
      let p ← place
      pass
      if (← rest).isEmpty then
        fail .unclosedGroup (.char start '(')
      else
        let (stop, fs) ← Reader.iterate flagStep []
        if stop = ':' then return .group fs false none
        else if fs.isEmpty then fail .nothingToRepeat (.empty p)
        else return .flags fs
    | _ => return .group [] true none

end Read

/-- Whether flags say that blanks stand for nothing. -/
def Flags.spaced? (fs : Flags) : Option Bool :=
  fs.lookup 'x'

namespace Draft

def add (d : Draft) (t : Tree) : Draft :=
  { d with inner := d.inner.add t }

def openGroup (d : Draft) (start : Place) : Read Draft := do
  let spaced := (← Reader.here).spaced
  match ← Read.groupStart d.names start with
  | .flags fs =>
    Read.setSpaced (fs.spaced?.getD spaced)
    return d.add (.flags ⟨start, ← Read.place⟩ fs)
  | .group fs kept name =>
    Read.setSpaced (fs.spaced?.getD spaced)
    return {
      inner := .startingAt (← Read.place)
      outer := ⟨start, fs, kept, d.inner, spaced⟩ :: d.outer
      names := name.toList ++ d.names }

/-- Closes the innermost group by the bracket at `p`. -/
def closeGroup (d : Draft) (p : Place) : Read Draft := do
  match d.outer with
  | [] => Read.fail .unopenedGroup (.char p ')')
  | g :: outer =>
    Read.setSpaced g.spaced
    let t := Tree.group ⟨g.start, ← Read.place⟩ g.flags g.kept (d.inner.tree p)
    return { d with inner := g.outer.add t, outer }

/-! ## Repetitions -/

/-- What the repetition at `p` repeats, and the draft without it. -/
def repeated (d : Draft) (p : Place) : Read (Tree × Draft) :=
  match d.inner.items with
  | [] => Read.fail .nothingToRepeat (.empty p)
  | t :: items =>
    if t.isRepeatable then return (t, { d with inner := { d.inner with items } })
    else Read.fail .nothingToRepeat (.empty p)

/-- Passes a sign behind a repetition that asks for as few rounds as possible. -/
def passReluctant : Read Unit := do
  if (← Read.peek) = some '?' then Read.pass

def addTimes (d : Draft) (t : Tree) (least : Nat) (most : Option Nat) : Read Draft := do
  return d.add (.times ⟨t.extent.start, ← Read.place⟩ t least most)

/-- A repetition by a sign at `p`. -/
def repeatBySign (d : Draft) (p : Place) (least : Nat) (most : Option Nat) : Read Draft := do
  let (t, d) ← d.repeated p
  passReluctant
  d.addTimes t least most

end Draft

namespace Read

def greatestCount : Nat := 0xFFFFFFFF

/-- A number with blanks around it, or what is wrong with it. -/
def count : Read (Except Fault Nat) := do
  skip ((← rest).takeWhile Text.isBlank).length
  let start ← place
  let digits ← collect (·.isDigit)
  let extent : Extent := ⟨start, ← place⟩
  let _ ← collect Text.isBlank
  let n := digits.foldl (fun n c => n * 10 + (c.toNat - '0'.toNat)) 0
  if digits.isEmpty then return .error ⟨.noCount, extent, none⟩
  else if greatestCount < n then return .error ⟨.badDecimal, extent, none⟩
  else return .ok n

/-- Fails if nothing is left of a number of repetitions. -/
def expectMoreOfCount (start : Place) : Read Unit := do
  expectMore ⟨.unclosedCount, ⟨start, ← place⟩, none⟩

/-- The numbers of repetitions between braces, the first of which was passed at `start`. Their
faults are told once their role is clear. -/
def counts (start : Place) : Read (Nat × Option Nat) := do
  skipBlanks
  expectMoreOfCount start
  let least ← count
  expectMoreOfCount start
  if (← peek) ≠ some ',' then
    let n ← ofExcept least
    return (n, some n)
  else
    passOn
    expectMoreOfCount start
    let n ← ofExcept least
    if (← peek) = some '}' then
      return (n, none)
    else
      return (n, some (← ofExcept (← count)))

end Read

namespace Draft

/-- A repetition by numbers between braces, of which the first is at `p`. -/
def repeatByCounts (d : Draft) (p : Place) : Read Draft := do
  let (t, d) ← d.repeated p
  let (least, most) ← Read.counts p
  if (← Read.peek) ≠ some '}' then
    Read.failSince .unclosedCount p
  else
    Read.passOn
    passReluctant
    if most.any (· < least) then Read.failSince .reversedCount p
    else d.addTimes t least most

def addEscape (d : Draft) : Escape → Draft
  | .leaf l => d.add (.leaf l)
  | .assertion e a => d.add (.assertion e a)

/-- Goes on with what a character at `p` begins. -/
def read (d : Draft) (p : Place) (c : Char) : Read Draft := do
  match c with
  | '(' => d.openGroup p
  | ')' => d.closeGroup p
  | '|' => return { d with inner := d.inner.next p }
  | '[' => return d.add (← Read.set p)
  | '?' => d.repeatBySign p 0 (some 1)
  | '*' => d.repeatBySign p 0 none
  | '+' => d.repeatBySign p 1 none
  | '{' => d.repeatByCounts p
  | '\\' => return d.addEscape (← Read.escape p)
  | '.' => return d.add (.dot (.char p c))
  | '^' => return d.add (.assertion (.char p c) .startLine)
  | '$' => return d.add (.assertion (.char p c) .stopLine)
  | _ => return d.add (.leaf (.literal ⟨.char p c, c, false⟩))

/-- The pattern, once all of it has been read. -/
def finish (d : Draft) (p : Place) : Except Fault Tree :=
  match d.outer with
  | [] => .ok (d.inner.tree p)
  | g :: _ => .error ⟨.unclosedGroup, .char g.start '(', none⟩

def turn (d : Draft) : Read (Reader.Turn Draft Tree) := do
  Read.skipBlanks
  let p ← Read.place
  match ← Read.next? with
  | none => return .done (← Read.ofExcept (d.finish p))
  | some c => return .again (← d.read p c)

end Draft

theorem passes_draftTurn (d : Draft) : Reader.PassesIf Reader.Turn.IsAgain d.turn :=
  .after _ fun _ => .after _ fun _ => PassesIf.ofNext (.after _ fun _ => .pure id)

def draftStep : Reader.Step Cursor Fault Draft Tree where
  turn := Draft.turn
  passes := passes_draftTurn

/-- The tree of a pattern, if no part of it lies too deep. -/
def Tree.ofText (source : String) : Except Fault Tree := do
  let (t, _) ← (Reader.iterate draftStep {}).run { rest := source.toList }
  match t.tooDeep? 0 with
  | some e => .error ⟨.tooDeep, e, none⟩
  | none => .ok t

end DeletionGuard.Pattern
