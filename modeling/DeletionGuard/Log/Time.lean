/-!
# Times

The time of a log entry is that of the clock at Greenwich, to the second. A year is taken to begin
in March, so that a leap day is the last one of its year and of its span of 4, 100 or 400 years.
-/

namespace DeletionGuard

/-- A time, in seconds since the beginning of 1970. -/
structure Timestamp where
  seconds : Nat
  deriving DecidableEq, Repr

namespace Timestamp

/-- The days between the first of March of the year 0 and the beginning of 1970. -/
def daysBefore1970 : Nat := 719468

def daysIn400Years : Nat := 146097

/-- The days since the last year that 400 divides began. -/
def dayOfSpan (t : Timestamp) : Nat :=
  (t.seconds / 86400 + daysBefore1970) % daysIn400Years

/-- The years since the last one that 400 divides. -/
def yearOfSpan (t : Timestamp) : Nat :=
  (t.dayOfSpan - t.dayOfSpan / 1460 + t.dayOfSpan / 36524 - t.dayOfSpan / 146096) / 365

def dayOfYear (t : Timestamp) : Nat :=
  t.dayOfSpan - (365 * t.yearOfSpan + t.yearOfSpan / 4 - t.yearOfSpan / 100)

/-- The months since March. -/
def monthOfYear (t : Timestamp) : Nat :=
  (5 * t.dayOfYear + 2) / 153

def day (t : Timestamp) : Nat :=
  t.dayOfYear - (153 * t.monthOfYear + 2) / 5 + 1

def month (t : Timestamp) : Nat :=
  if t.monthOfYear < 10 then t.monthOfYear + 3 else t.monthOfYear - 9

def year (t : Timestamp) : Nat :=
  (t.seconds / 86400 + daysBefore1970) / daysIn400Years * 400 + t.yearOfSpan +
    if t.month ≤ 2 then 1 else 0

/-- A number with zeros before it, up to a width. -/
def padded (width n : Nat) : String :=
  String.ofList ((Nat.toDigits 10 n).leftpad width '0')

def text (t : Timestamp) : String :=
  padded 4 t.year ++ "-" ++ padded 2 t.month ++ "-" ++ padded 2 t.day ++ "T" ++
    padded 2 (t.seconds / 3600 % 24) ++ ":" ++ padded 2 (t.seconds / 60 % 60) ++ ":" ++
    padded 2 (t.seconds % 60) ++ "Z"

end Timestamp

end DeletionGuard
