import DeletionGuard.Numeric.Binary64

/-!
# Shortest decimals

The fewest decimal digits that read back as a given number. The numbers that read back as `x` form
an interval around it, whose ends belong to it if the mantissa is even. Of each grid of `1`, `2`, …
digits only the two neighbours of `x` matter; the first grid with one in the interval wins, and of
two the nearer.
-/

namespace DeletionGuard

/-- The number `0.d₁d₂… * 10 ^ point`. -/
structure Decimal where
  digits : List Nat
  point : Int
  deriving DecidableEq, Repr

namespace Decimal

/-- The decimal digits of `n`, the first one first. -/
def digitsOf (n : Nat) : List Nat :=
  (Nat.toDigits 10 n).map (fun c => c.toNat - '0'.toNat)

/-- The power `k` for which `num / den` is at least `10 ^ (k - 1)` and below `10 ^ k`. -/
def pointOf (num den : Nat) : Int :=
  if den ≤ num then
    (digitsOf (num / den)).length
  else
    1 - ((digitsOf ((den + num - 1) / num - 1)).length : Int)

/-- Four times the ends of the interval that rounds to `x`, in units of `2 ^ x.exponent`. -/
def interval (x : Binary64) : Nat × Nat :=
  let below := if x.mantissa = powerOfTwo 52 ∧ x.exponent ≠ Binary64.leastExponent then 1 else 2
  (4 * x.mantissa - below, 4 * x.mantissa + 2)

/-- Whether `num / den` reads back as `x`. -/
def readsBack (x : Binary64) (num den : Nat) : Bool :=
  let (low, high) := interval x
  let (a, b) := Binary64.scale 1 4 x.exponent
  let (l, v, h) := (low * a * den, num * b, high * a * den)
  if x.mantissa % 2 = 0 then l ≤ v && v ≤ h else l < v && v < h

/-- The neighbour of `x` on the grid of `n` digits that reads back as `x`, the nearer if both do. -/
def onGrid? (x : Binary64) (n : Nat) : Option Decimal :=
  let (num, den) := x.toRatio
  let point := pointOf num den
  let e := point - n
  let (gridNum, gridDen) := (powerOfTen e.toNat, powerOfTen (-e).toNat)
  let q := num * gridDen / (den * gridNum)
  let rest := num * gridDen % (den * gridNum)
  let good (k : Nat) : Bool := readsBack x (k * gridNum) gridDen
  let up := 2 * rest > den * gridNum || (2 * rest == den * gridNum && q % 2 == 1)
  let pick : Option Nat :=
    match good q, good (q + 1) with
    | true, true => some (if up then q + 1 else q)
    | true, false => some q
    | false, true => some (q + 1)
    | false, false => none
  pick.map fun k =>
    let ds := digitsOf k
    ⟨ds, point + ((ds.length : Int) - n)⟩

/-- The first grid, from `n` digits on, with a number that reads back; at most `more` are tried. -/
def firstGrid (x : Binary64) (n : Nat) : Nat → Decimal
  | 0 => ⟨[0], 1⟩
  | more + 1 => (onGrid? x n).getD (firstGrid x (n + 1) more)

/-- No number of 64 bits needs more than 17 digits. -/
def shortest (x : Binary64) : Decimal :=
  if x.isZero then ⟨[0], 1⟩ else
    let d := firstGrid x 1 17
    ⟨(d.digits.reverse.dropWhile (· == 0)).reverse, d.point⟩

end Decimal

/-- How a number is laid out as text. -/
structure NumberLayout where
  /-- Whether a number below `10 ^ point` is written without an exponent. -/
  positional : Int → Bool

namespace NumberLayout

def digitText (ds : List Nat) : String :=
  String.ofList (ds.map Nat.digitChar)

def zeros (n : Nat) : String :=
  String.ofList (List.replicate n '0')

/-- Digits around a point, with at least one on either side. -/
def positionalText (d : Decimal) : String :=
  let n := d.digits.length
  if d.point ≤ 0 then
    "0." ++ zeros (-d.point).toNat ++ digitText d.digits
  else if n ≤ d.point.toNat then
    digitText d.digits ++ zeros (d.point.toNat - n) ++ ".0"
  else
    digitText (d.digits.take d.point.toNat) ++ "." ++ digitText (d.digits.drop d.point.toNat)

/-- One digit, the others behind a point, and a signed exponent. -/
def exponentText (d : Decimal) : String :=
  let tail := d.digits.drop 1
  let e := d.point - 1
  digitText (d.digits.take 1) ++ (if tail.isEmpty then "" else "." ++ digitText tail) ++
    (if e < 0 then "e-" else "e+") ++ toString e.natAbs

def text (l : NumberLayout) (negative : Bool) (x : Binary64) : String :=
  let d := Decimal.shortest x
  (if negative then "-" else "") ++
    (if l.positional d.point then positionalText d else exponentText d)

end NumberLayout

end DeletionGuard
