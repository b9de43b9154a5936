import DeletionGuard.Numeric.Binary64

/-!
# Similarity of words

How similar two words are, between 0 and 1: the share of characters of either word that the other
one has at about the same place, and the share of these that come in the same order.
-/

namespace DeletionGuard.Text

/-- How far apart characters may be to count as being at about the same place. -/
def reach (a b : List Char) : Nat :=
  max a.length b.length / 2 - 1

/-- The first place within reach of `i` with the character `c` that is not taken yet. -/
def partner? (reach i : Nat) (c : Char) (b : List Char) (taken : List Nat) : Option Nat :=
  (List.range (min b.length (i + reach + 1))).find? fun j =>
    i - reach ≤ j && b[j]? == some c && !taken.contains j

/-- The characters of a word from place `i` on that have partners in `b`, and those partners. -/
def partners (reach : Nat) (b : List Char) (taken : List Nat) (i : Nat) :
    List Char → List (Char × Nat)
  | [] => []
  | c :: cs =>
    match partner? reach i c b taken with
    | some j => (c, j) :: partners reach b (j :: taken) (i + 1) cs
    | none => partners reach b taken (i + 1) cs

/-- Half the number of partners that are out of order. -/
def transpositions (pairs : List (Char × Nat)) (b : List Char) : Nat :=
  let places := pairs.map (·.2)
  let inOrder := ((List.range b.length).filter places.contains).filterMap (b[·]?)
  ((pairs.zip inOrder).filter fun (p, d) => p.1 != d).length / 2

/-- The similarity of two words, computed in binary floating point. -/
def similarity (s t : String) : Binary64 :=
  let a := s.toList
  let b := t.toList
  let pairs := partners (reach a b) b [] 0 a
  let n := pairs.length
  if n = 0 then
    .zero
  else
    let sum : Option Binary64 := do
      let first ← (← Binary64.ofRatio n a.length).add (← Binary64.ofRatio n b.length)
      let all ← first.add (← Binary64.ofRatio (n - transpositions pairs b) n)
      all.div (← Binary64.ofRatio 3 1)
    sum.getD .zero

/-- The similarity that a word must exceed to be taken for another one. -/
def leastSimilarity : Binary64 :=
  (Binary64.ofDecimal 7 (-1)).getD .zero

/-- The most similar of the given words, the last one of several. -/
def mostSimilar? (word : String) (others : List String) : Option String :=
  let better (best : Option (String × Binary64)) (other : String) : Option (String × Binary64) :=
    let x := similarity word other
    if leastSimilarity.lt x && best.all (fun b => !x.lt b.2) then some (other, x) else best
  (others.foldl better none).map (·.1)

end DeletionGuard.Text
