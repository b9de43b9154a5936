/-!
# Numerals

Natural numbers written with digits; letters of either case follow the digit nine.
-/

namespace DeletionGuard

/-- What a digit stands for in a radix of at most 36. -/
def digitOf? (radix : Nat) (c : Char) : Option Nat :=
  let value :=
    if c.isDigit then some (c.toNat - '0'.toNat)
    else if c.isLower then some (c.toNat - 'a'.toNat + 10)
    else if c.isUpper then some (c.toNat - 'A'.toNat + 10)
    else none
  value.filter (· < radix)

/-- The number that one or more digits stand for. -/
def natural? (radix : Nat) (cs : List Char) : Option Nat :=
  if cs.isEmpty then none
  else cs.foldl (fun n? c => do return (← n?) * radix + (← digitOf? radix c)) (some 0)

end DeletionGuard
