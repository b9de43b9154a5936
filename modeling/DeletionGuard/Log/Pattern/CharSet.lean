/-!
# Sets of characters

A set is a list of ranges of code points, in order and apart from one another.
-/

namespace DeletionGuard.Pattern

structure CodeRange where
  low : Nat
  high : Nat
  deriving DecidableEq, Repr

structure CharSet where
  ranges : List CodeRange
  deriving DecidableEq, Repr

namespace CharSet

def greatestCodePoint : Nat := 0x10FFFF

def contains (s : CharSet) (c : Char) : Bool :=
  s.ranges.any fun r => r.low ≤ c.toNat && c.toNat ≤ r.high

def empty : CharSet := ⟨[]⟩

/-- Puts a range behind others that start no later, which are reversed. -/
def push (before : List CodeRange) (r : CodeRange) : List CodeRange :=
  match before with
  | [] => [r]
  | b :: bs => if r.low ≤ b.high + 1 then ⟨b.low, max b.high r.high⟩ :: bs else r :: before

def ofRanges (rs : List CodeRange) : CharSet :=
  ⟨((rs.mergeSort fun a b => a.low ≤ b.low).foldl push []).reverse⟩

def single (c : Char) : CharSet :=
  ⟨[⟨c.toNat, c.toNat⟩]⟩

def range (a b : Char) : CharSet :=
  ⟨[⟨a.toNat, b.toNat⟩]⟩

def union (s t : CharSet) : CharSet :=
  ofRanges (s.ranges ++ t.ranges)

/-- What lies before, between and behind ranges, from `next` on. -/
def gaps (next : Nat) : List CodeRange → List CodeRange
  | [] => if next ≤ greatestCodePoint then [⟨next, greatestCodePoint⟩] else []
  | r :: rs =>
    if next < r.low then ⟨next, r.low - 1⟩ :: gaps (r.high + 1) rs else gaps (r.high + 1) rs

def complement (s : CharSet) : CharSet :=
  ⟨gaps 0 s.ranges⟩

def overlap? (a b : CodeRange) : Option CodeRange :=
  let low := max a.low b.low
  let high := min a.high b.high
  if low ≤ high then some ⟨low, high⟩ else none

def intersection (s t : CharSet) : CharSet :=
  ofRanges (s.ranges.flatMap fun a => t.ranges.filterMap (overlap? a))

def difference (s t : CharSet) : CharSet :=
  s.intersection t.complement

def symmetricDifference (s t : CharSet) : CharSet :=
  (s.union t).difference (s.intersection t)

/-- Whether no character of the set lies outside ASCII. -/
def isAscii (s : CharSet) : Bool :=
  s.ranges.all (·.high < 0x80)

/-- The only character of a set. -/
def single? (s : CharSet) : Option Char :=
  match s.ranges with
  | [⟨low, high⟩] => if low = high then some (Char.ofNat low) else none
  | _ => none

/-- What a range holds of the characters from `a` to `z`, moved so that `a` comes to `b`. -/
def moved (a z b : Char) (r : CodeRange) : List CodeRange :=
  ((overlap? r ⟨a.toNat, z.toNat⟩).map fun o =>
    ⟨o.low - a.toNat + b.toNat, o.high - a.toNat + b.toNat⟩).toList

/-- The set with both cases of each of its ASCII letters. -/
def bothCases (s : CharSet) : CharSet :=
  ofRanges (s.ranges ++ s.ranges.flatMap (moved 'a' 'z' 'A') ++ s.ranges.flatMap (moved 'A' 'Z' 'a'))

/-! ## Sets with a name -/

/-- The set of the ranges that pairs of characters stand for. -/
def ofPairs (ps : List (Char × Char)) : CharSet :=
  ofRanges (ps.map fun p => ⟨p.1.toNat, p.2.toNat⟩)

def digits : CharSet := ofPairs [('0', '9')]

def wordChars : CharSet := ofPairs [('0', '9'), ('A', 'Z'), ('_', '_'), ('a', 'z')]

def spaces : CharSet := ofPairs [('\t', '\r'), (' ', ' ')]

/-- The sets of ASCII characters that have a name. -/
def named : List (String × CharSet) :=
  let lower := ('a', 'z')
  let upper := ('A', 'Z')
  let control := [(Char.ofNat 0, Char.ofNat 0x1F), (Char.ofNat 0x7F, Char.ofNat 0x7F)]
  [("alnum", ofPairs [('0', '9'), upper, lower]),
    ("alpha", ofPairs [upper, lower]),
    ("ascii", ofPairs [(Char.ofNat 0, Char.ofNat 0x7F)]),
    ("blank", ofPairs [('\t', '\t'), (' ', ' ')]),
    ("cntrl", ofPairs control),
    ("digit", digits),
    ("graph", ofPairs [('!', '~')]),
    ("lower", ofPairs [lower]),
    ("print", ofPairs [(' ', '~')]),
    ("punct", ofPairs [('!', '/'), (':', '@'), ('[', (Char.ofNat 0x60)), ('{', '~')]),
    ("space", spaces),
    ("upper", ofPairs [upper]),
    ("word", wordChars),
    ("xdigit", ofPairs [('0', '9'), ('A', 'F'), ('a', 'f')])]

end CharSet

end DeletionGuard.Pattern
