import Custody.Decimal.Digits

/-!
The shortest decimal that reads back as a given double. A double stands for every real that rounds
to it; among the decimals in that interval with the fewest digits the nearest is taken. Where two
are equally near, a rule for ties chooses.
-/

namespace Custody.Decimal

structure Binary where
  mantissa : Nat
  exponent : Int
  /-- Tells whether the next smaller double is only half as far away as the next larger one. -/
  narrow : Bool

def Binary.ofBits (bits : UInt64) : Binary :=
  let unit : Nat := 1 <<< 52
  let low := bits.toNat % unit
  let e := bits.toNat / unit % 2048
  if e = 0 then ⟨low, -1074, false⟩ else ⟨low + unit, e - 1075, low = 0 ∧ 1 < e⟩

inductive Tie where
  /-- the one whose last digit is even -/
  | toEven
  /-- the greater one -/
  | up
deriving DecidableEq, Repr

structure Scaled where
  digits : Nat
  exponent : Int

def power (b : Nat) (e : Int) : Nat × Nat := (Nat.pow b e.toNat, Nat.pow b (-e).toNat)

/-- Compares `x * 2 ^ q` with `d * 10 ^ e`. -/
def compareScales (x : Nat) (q : Int) (d : Nat) (e : Int) : Ordering :=
  let (a, b) := power 2 q
  let (c, f) := power 10 e
  compare (x * a * f) (d * c * b)

/-- Tells whether the decimal lies among the reals that round to the double. -/
def Binary.covers (v : Binary) (s : Scaled) : Bool :=
  let lower := if v.narrow then 4 * v.mantissa - 1 else 4 * v.mantissa - 2
  let upper := 4 * v.mantissa + 2
  let below := compareScales lower (v.exponent - 2) s.digits s.exponent
  let above := compareScales upper (v.exponent - 2) s.digits s.exponent
  if v.mantissa % 2 = 0 then below != .gt && above != .lt else below == .lt && above == .gt

def Binary.magnitude (v : Binary) : Int :=
  let (a, b) := power 2 v.exponent
  ((Digit.ofNat (v.mantissa * a * Nat.pow 10 350 / b)).length : Int) - 351

/-- The decimal with `count` digits that stands for the double, if there is one. -/
def Binary.approximate? (v : Binary) (tie : Tie) (count : Nat) : Option Scaled :=
  let e := v.magnitude - count + 1
  let (a, b) := power 2 v.exponent
  let (c, f) := power 10 e
  let top := v.mantissa * a * f
  let unit := b * c
  let low : Scaled := ⟨top / unit, e⟩
  let high : Scaled := ⟨top / unit + 1, e⟩
  match v.covers low, v.covers high with
  | true, false => some low
  | false, true => some high
  | false, false => none
  | true, true =>
    match compare (2 * (top % unit)) unit with
    | .lt => some low
    | .gt => some high
    | .eq => some (if tie = .toEven ∧ low.digits % 2 = 0 then low else high)

/-- The shortest decimal that stands for a positive double; seventeen digits always suffice. -/
def Binary.shortest (v : Binary) (tie : Tie) : Scaled :=
  let found := (List.range 17).findSome? fun i => v.approximate? tie (i + 1)
  found.getD ⟨0, 0⟩

/-- A decimal as its significant digits, without trailing zeros, and the place of its point: the
value is `0.d₁d₂… * 10 ^ point`. -/
def Scaled.significant (s : Scaled) : List Digit × Int :=
  let ds := Digit.ofNat s.digits
  (((ds.reverse.dropWhile (· == .zero)).reverse), s.exponent + ds.length)

end Custody.Decimal
