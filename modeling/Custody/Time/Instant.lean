import Custody.Decimal.Digits
import Custody.Time.Calendar

/-!
Points in time, to the nanosecond, with leap seconds. An instant is written as a date and a time of
day in universal time, with as many digits after the point as it needs.
-/

namespace Custody

/-- A point in time: whole seconds from the start of 1970, and nanoseconds. A leap second is a second
of twice the length at the end of a minute. -/
structure Instant where
  second : Int
  nano : Nat
deriving DecidableEq, Repr

namespace Instant

/-- The first and the last year that instants can lie in. -/
def firstYear : Int := -262143

@[inherit_doc firstYear] def lastYear : Int := 262142

def date (t : Instant) : Date := .ofDay (t.second / 86400)

/-- Tells whether an instant is one that can be written and read: its year is in range, and it has
more than a second's worth of nanoseconds only in a leap second. -/
def Valid (t : Instant) : Prop :=
  firstYear ≤ t.date.year ∧ t.date.year ≤ lastYear ∧ t.nano < 2000000000 ∧
    (1000000000 ≤ t.nano → t.second % 60 = 59)

def padded (width n : Nat) : Bytes :=
  let ds := Bytes.ofNat n
  List.replicate (width - ds.length) 48 ++ ds

/-- The written form of a year: four digits, and a sign where there is need of one. -/
def renderYear (y : Int) : Bytes :=
  if 0 ≤ y ∧ y ≤ 9999 then padded 4 y.toNat
  else (if y < 0 then 45 else 43) :: padded 4 y.natAbs

/-- The fraction of a second with the fewest digits, in groups of three, that loses nothing. -/
def renderFraction (nano : Nat) : Bytes :=
  if nano = 0 then []
  else if nano % 1000000 = 0 then 46 :: padded 3 (nano / 1000000)
  else if nano % 1000 = 0 then 46 :: padded 6 (nano / 1000)
  else 46 :: padded 9 nano

def render (t : Instant) : Bytes :=
  let date := t.date
  let clock := (t.second % 86400).toNat
  let leap := t.nano / 1000000000
  renderYear date.year ++ 45 :: padded 2 date.month ++ 45 :: padded 2 date.day ++
    84 :: padded 2 (clock / 3600) ++ 58 :: padded 2 (clock / 60 % 60) ++
    58 :: padded 2 (clock % 60 + leap) ++ renderFraction (t.nano % 1000000000) ++ [90]

def text (t : Instant) : String := Bytes.ascii t.render

end Instant

end Custody
