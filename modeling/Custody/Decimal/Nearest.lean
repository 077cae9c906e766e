import Custody.Decimal.Digits

/-!
The double nearest to a fraction. Of two equally near doubles the one with the even significand is
taken; what lies beyond the greatest double goes to infinity.
-/

namespace Custody.Decimal

/-- A quotient rounded to a whole number; a tie goes to the even one. -/
def roundQuotient (n d : Nat) : Nat :=
  let q := n / d
  match compare (2 * (n % d)) d with
  | .lt => q
  | .gt => q + 1
  | .eq => if q % 2 = 0 then q else q + 1

/-- The exponent of the last binary digit that a double near `n / d` holds. -/
def lastBinary (n d : Nat) : Int :=
  let guess : Int := max (-1074) ((n.log2 : Int) - d.log2 - 53)
  if n <<< (-guess).toNat < (d <<< guess.toNat) <<< 53 then guess else guess + 1

def nearest (n d : Nat) : Float :=
  let e := lastBinary n d
  (Float.ofNat (roundQuotient (n <<< (-e).toNat) (d <<< e.toNat))).scaleB e

/-- The double nearest to `digits * 10 ^ exponent`. What is far beyond the doubles is told by the place
of its leading digit alone. -/
def nearestScaled (digits : Nat) (exponent : Int) : Float :=
  let top : Int := (Digit.ofNat digits).length + exponent
  if digits = 0 ∨ top < -400 then 0
  else if 400 < top then 1.0 / 0.0
  else nearest (digits * Nat.pow 10 exponent.toNat) (Nat.pow 10 (-exponent).toNat)

end Custody.Decimal
