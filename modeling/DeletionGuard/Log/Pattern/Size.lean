import DeletionGuard.Log.Pattern.Expression
import DeletionGuard.Text.Utf8

/-!
# Sizes of patterns

A pattern is refused if the automaton that searches for it would become too large. The automaton
reads bytes, and there is one that reads them from the end on; both have to stay below the limit.
Sizes are numbers of bytes that the states of an automaton take.
-/

namespace DeletionGuard.Pattern

def sizeLimit : Nat := 10485760

/-- A state, with no more than one way out of it. -/
def stateSize : Nat := 32

/-- A state with ways out of it by so many ranges of bytes. -/
def branchingSize (ranges : Nat) : Nat := stateSize + 8 * ranges

/-- A state with so many ways out of it by nothing. -/
def joiningSize (ways : Nat) : Nat := stateSize + 4 * ways

/-! ## Characters as bytes -/

abbrev ByteRange := Nat × Nat

/-- The smallest and the greatest code point that take so many bytes, without the surrogates. -/
def widths : List CodeRange :=
  [⟨0, 0x7F⟩, ⟨0x80, 0x7FF⟩, ⟨0x800, 0xD7FF⟩, ⟨0xE000, 0xFFFF⟩, ⟨0x10000, 0x10FFFF⟩]

/-- The code point `n` in `k` bytes behind the first. -/
def trailingBytes (n : Nat) : Nat → List Nat
  | 0 => []
  | k + 1 => trailingBytes (n / 64) k ++ [0x80 + n % 64]

def bytesOf (n : Nat) : List Nat :=
  if n < 0x80 then [n]
  else if n < 0x800 then (0xC0 + n / 64) :: trailingBytes n 1
  else if n < 0x10000 then (0xE0 + n / 4096) :: trailingBytes n 2
  else (0xF0 + n / 262144) :: trailingBytes n 3

/-- Cuts a range of code points so that it holds only whole blocks of `unit` code points, or only a
part of one. -/
def cut (unit : Nat) (r : CodeRange) : List CodeRange :=
  if r.low / unit = r.high / unit then [r]
  else
    let first := (r.low + unit - 1) / unit * unit
    let last := (r.high + 1) / unit * unit
    [⟨r.low, first - 1⟩, ⟨first, last - 1⟩, ⟨last, r.high⟩].filter fun s => s.low ≤ s.high

/-- The rows of byte ranges that write the code points of a range of one width. -/
def alignedRows (r : CodeRange) : List (List ByteRange) :=
  let parts := match (bytesOf r.low).length with
    | 1 => [r]
    | 2 => cut 64 r
    | 3 => (cut 4096 r).flatMap (cut 64)
    | _ => ((cut 262144 r).flatMap (cut 4096)).flatMap (cut 64)
  parts.map fun p => (bytesOf p.low).zip (bytesOf p.high)

/-- The rows of byte ranges that write the code points of a range. -/
def byteRows (r : CodeRange) : List (List ByteRange) :=
  (widths.filterMap (CharSet.overlap? r)).flatMap alignedRows

/-- The states behind each way through rows that begin at the same state: the ranges that come
first, each with the rows behind it. -/
def grouped : List (List ByteRange) → List (ByteRange × List (List ByteRange))
  | [] => []
  | [] :: rows => grouped rows
  | (b :: row) :: rows =>
    match grouped rows with
    | (c, group) :: groups =>
      if b = c then (c, (row :: group)) :: groups else (b, [row]) :: (c, group) :: groups
    | [] => [(b, [row])]

/-- What follows each state but the last, for rows of up to `n` ranges. -/
def suffixSets : Nat → List (List ByteRange) → List (List (List ByteRange))
  | 0, _ => []
  | n + 1, rows =>
    if rows.all (·.isEmpty) then []
    else rows :: (grouped rows).flatMap fun g => suffixSets n g.2

/-- States that are followed by the same are one. -/
def forwardRowsSize (rows : List (List ByteRange)) : Nat :=
  (suffixSets 4 rows).eraseDups.foldl (fun n s => n + branchingSize (grouped s).length) stateSize

/-- Read from the end on, rows meet where they have the same beginning. -/
def backwardRowsSize (rows : List (List ByteRange)) : Nat :=
  let beginnings := (rows.flatMap fun row =>
    (List.range row.length).map fun i => row.take (i + 1)).eraseDups
  joiningSize rows.length + stateSize + beginnings.length * stateSize

def charsSize (backward : Bool) (s : CharSet) : Nat :=
  match s.single? with
  | some c => c.utf8Size * stateSize
  | none =>
    if s.isAscii then stateSize + branchingSize s.ranges.length
    else
      let rows := s.ranges.flatMap byteRows
      if backward then backwardRowsSize rows else forwardRowsSize rows

/-! ## Choices of words -/

mutual

/-- The bytes of an expression that stands for a single text. -/
def literal? : Expression Atom → Option (List UInt8)
  | .atom (.chars s) => s.single?.map Utf8.encodeChar
  | .seq ps => literals? [] ps
  | _ => none

def literals? (before : List UInt8) : List (Expression Atom) → Option (List UInt8)
  | [] => some before
  | p :: ps =>
    match literal? p with
    | none => none
    | some bytes => literals? (before ++ bytes) ps

end

/-- Cuts words where one of them is empty. -/
def chunks : List (List UInt8) → List (List (List UInt8))
  | [] => [[]]
  | [] :: words => [] :: chunks words
  | word :: words =>
    match chunks words with
    | [] => [[word]]
    | chunk :: rest => (word :: chunk) :: rest

/-- The words that start with a byte, without it. -/
def behind (b : UInt8) (words : List (List UInt8)) : List (List UInt8) :=
  words.filterMap fun w => if w.head? = some b then some w.tail else none

/-- A tree of words of up to `n` bytes, of which the last state is not counted. -/
def wordTreeSize : Nat → List (List UInt8) → Nat
  | 0, _ => 0
  | n + 1, words =>
    if words.all (·.isEmpty) then 0
    else
      let parts := chunks words
      let full := parts.filter (!·.isEmpty)
      let own := full.foldl (fun k part =>
        let firsts := (part.filterMap List.head?).eraseDups
        k + if firsts.length = 1 then stateSize else branchingSize firsts.length) 0
      let inner := full.foldl (fun k part =>
        ((part.filterMap List.head?).eraseDups).foldl
          (fun k b => k + wordTreeSize n (behind b part)) k) 0
      joiningSize (full.length + (parts.length - 1)) + own + inner

/-! ## Expressions -/

/-- The least width of a match, which is missing if there is none. -/
def sumWidths : Option Nat → Option Nat → Option Nat
  | some a, some b => some (a + b)
  | _, _ => none

mutual

def leastWidth? : Expression Atom → Option Nat
  | .empty => some 0
  | .atom (.chars s) => if s.ranges.isEmpty then none else some 1
  | .atom (.look _) => some 0
  | .seq ps => seqWidth? (some 0) ps
  | .either ps => choiceWidth? ps
  | .times p least _ => (leastWidth? p).map (· * least)
  | .kept p => leastWidth? p

def seqWidth? (n : Option Nat) : List (Expression Atom) → Option Nat
  | [] => n
  | p :: ps => seqWidth? (sumWidths n (leastWidth? p)) ps

def choiceWidth? : List (Expression Atom) → Option Nat
  | [] => none
  | [p] => leastWidth? p
  | p :: ps =>
    match leastWidth? p, choiceWidth? ps with
    | some a, some b => some (min a b)
    | _, _ => none

end

/-- A repetition of something of size `n`. -/
def timesSize (n : Nat) (hasWidth : Bool) (least : Nat) : Option Nat → Nat
  | none =>
    if least = 0 then
      if hasWidth then joiningSize 2 + n else n + 2 * joiningSize 2 + stateSize
    else least * n + joiningSize 2
  | some most =>
    if least = most then least * n
    else if least = 0 ∧ most = 1 then joiningSize 2 + n + stateSize
    else (if least = 0 then stateSize else least * n) + stateSize +
      (most - least) * (joiningSize 2 + n)

mutual

def expressionSize (backward : Bool) : Expression Atom → Nat
  | .empty => stateSize
  | .atom (.chars s) => charsSize backward s
  | .atom (.look _) => stateSize
  | .seq ps => sizeSum backward 0 ps
  | .either ps =>
    match ps.mapM literal? with
    | some words =>
      let words := if backward then words.map List.reverse else words
      stateSize + wordTreeSize (words.foldl (fun n w => max n w.length) 0) words
    | none => joiningSize ps.length + stateSize + sizeSum backward 0 ps
  | .times p least most =>
    timesSize (expressionSize backward p) ((leastWidth? p).any (0 < ·)) least most
  | .kept p => expressionSize backward p + if backward then 0 else 2 * stateSize

def sizeSum (backward : Bool) (n : Nat) : List (Expression Atom) → Nat
  | [] => n
  | p :: ps => sizeSum backward (n + expressionSize backward p) ps

end

/-- What comes before a match and behind it, and the places of the match itself. -/
def frameSize (backward : Bool) : Nat :=
  branchingSize 1 + stateSize + joiningSize 2 + stateSize + if backward then 0 else 2 * stateSize

def size (backward : Bool) (e : Expression Atom) : Nat :=
  frameSize backward + expressionSize backward e

end DeletionGuard.Pattern
