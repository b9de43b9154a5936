import DeletionGuard.Numeric.Power

/-!
# Binary floating point

The finite numbers of the 64-bit format, without their sign, as exact pairs `m * 2 ^ q`. Every
operation rounds the exact result to the nearest such number, a half to the even neighbour.
-/

namespace DeletionGuard

/-- The number `mantissa * 2 ^ exponent`, with a mantissa of 53 bits or the least exponent. -/
structure Binary64 where
  mantissa : Nat
  exponent : Int
  deriving DecidableEq, Repr

namespace Binary64

def leastExponent : Int := -1074

def greatestExponent : Int := 971

def zero : Binary64 := ⟨0, leastExponent⟩

/-- `num / den` rounded to a natural number, a half to the even one. -/
def roundDiv (num den : Nat) : Nat :=
  let q := num / den
  let twice := 2 * (num % den)
  if den < twice || (twice == den && q % 2 == 1) then q + 1 else q

/-- The fraction `num / den` multiplied by `2 ^ e`. -/
def scale (num den : Nat) (e : Int) : Nat × Nat :=
  (num * powerOfTwo e.toNat, den * powerOfTwo (-e).toNat)

/-- The exponent at which `num / den` has a mantissa of 53 bits, or the least one. -/
def exponentOf (num den : Nat) : Int :=
  let l := (num.log2 : Int) - den.log2
  let (n, d) := scale num den (-l)
  max leastExponent (if n < d then l - 53 else l - 52)

/-- The number nearest to `num / den`, or `none` where that is out of range. -/
def ofRatio (num den : Nat) : Option Binary64 :=
  if num = 0 then
    some zero
  else
    let e := exponentOf num den
    let (n, d) := scale num den (-e)
    let m := roundDiv n d
    let (m, e) := if m = powerOfTwo 53 then (powerOfTwo 52, e + 1) else (m, e)
    if greatestExponent < e then none else some ⟨m, e⟩

/-- The exact value as a fraction. -/
def toRatio (x : Binary64) : Nat × Nat :=
  scale x.mantissa 1 x.exponent

def isZero (x : Binary64) : Bool :=
  x.mantissa == 0

def add (x y : Binary64) : Option Binary64 :=
  let (a, b) := x.toRatio
  let (c, d) := y.toRatio
  ofRatio (a * d + c * b) (b * d)

def lt (x y : Binary64) : Bool :=
  let (a, b) := x.toRatio
  let (c, d) := y.toRatio
  a * d < c * b

def mul (x y : Binary64) : Option Binary64 :=
  let (a, b) := x.toRatio
  let (c, d) := y.toRatio
  ofRatio (a * c) (b * d)

/-- The quotient; that by zero counts as out of range. -/
def div (x y : Binary64) : Option Binary64 :=
  let (a, b) := x.toRatio
  let (c, d) := y.toRatio
  if c = 0 then none else ofRatio (a * d) (b * c)

/-- The number nearest to `significand * 10 ^ e`. -/
def ofDecimal (significand : Nat) (e : Int) : Option Binary64 :=
  ofRatio (significand * powerOfTen e.toNat) (powerOfTen (-e).toNat)

end Binary64

end DeletionGuard
