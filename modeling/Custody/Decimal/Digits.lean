import Custody.Bytes

/-!
Decimal digits: their bytes, the digits of a number and the number of its digits. The digits of a
number carry no leading zero, except that zero is written with one.
-/

namespace Custody

abbrev Digit := Fin 10

namespace Digit

def zero : Digit := ⟨0, by decide⟩

def byte (d : Digit) : UInt8 := (48 + d.val).toUInt8

def ofByte? (c : UInt8) : Option Digit :=
  if h : 48 ≤ c.toNat ∧ c.toNat < 58 then some ⟨c.toNat - 48, by omega⟩ else none

def number (ds : List Digit) : Nat := ds.foldl (fun n d => n * 10 + d.val) 0

/-- The digits of a number in front of those already written. -/
def prepend (n : Nat) (ds : List Digit) : List Digit :=
  let d : Digit := ⟨n % 10, by omega⟩
  if h : n < 10 then d :: ds else prepend (n / 10) (d :: ds)
termination_by n
decreasing_by omega

def ofNat (n : Nat) : List Digit := prepend n []

def bytes (ds : List Digit) : Bytes := ds.map byte

def split (s : Bytes) : List Digit × Bytes :=
  let isDigit := fun c => (ofByte? c).isSome
  ((s.takeWhile isDigit).filterMap ofByte?, s.dropWhile isDigit)

end Digit

def Bytes.ofNat (n : Nat) : Bytes := Digit.bytes (Digit.ofNat n)

end Custody
