/-!
Dates of the calendar that skips three leap days in four centuries, without end in both directions.
Days are numbered from the first day of 1970.
-/

namespace Custody

/-- A year, a month from 1 to 12 and a day from 1. -/
structure Date where
  year : Int
  month : Nat
  day : Nat
deriving DecidableEq, Repr

namespace Calendar

def isLeap (y : Int) : Bool := y % 4 = 0 && (y % 100 ≠ 0 || y % 400 = 0)

def monthLengths (leap : Bool) : List Nat :=
  [31, if leap then 29 else 28, 31, 30, 31, 30, 31, 31, 30, 31, 30, 31]

def daysBefore (y : Int) : Int := 365 * y + (y + 3) / 4 - (y + 99) / 100 + (y + 399) / 400

def epoch : Int := daysBefore 1970

/-- The year in which a day lies that is counted from year 0. A first guess is at most one off. -/
def yearOf (d : Int) : Int :=
  let guess := d * 400 / 146097
  if d < daysBefore guess then guess - 1
  else if daysBefore (guess + 1) ≤ d then guess + 1
  else guess

/-- Finds month and day for a day of the year, counted from zero. -/
def monthOf (month : Nat) : List Nat → Nat → Nat × Nat
  | [], d => (month, d + 1)
  | n :: rest, d => if d < n then (month, d + 1) else monthOf (month + 1) rest (d - n)

end Calendar

namespace Date

open Calendar

def ofDay (n : Int) : Date :=
  let d := n + epoch
  let y := yearOf d
  let (month, day) := monthOf 1 (monthLengths (isLeap y)) (d - daysBefore y).toNat
  ⟨y, month, day⟩

def exists? (date : Date) : Bool :=
  1 ≤ date.month && 1 ≤ date.day &&
    match (monthLengths (isLeap date.year))[date.month - 1]? with
    | some n => date.day ≤ n
    | none => false

def toDay (date : Date) : Int :=
  let months := (monthLengths (isLeap date.year)).take (date.month - 1)
  daysBefore date.year + (months.foldl (· + ·) 0 : Nat) + (date.day - 1 : Nat) - epoch

end Date

end Custody
