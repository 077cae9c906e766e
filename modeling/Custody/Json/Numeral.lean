import Custody.Decimal.Shortest

/-!
Numbers as they are written in a document, and what they stand for. A numeral without fraction and
exponent stands for an integer if it fits 64 bits; every other one stands for a double, and one too
big for a double stands for nothing.
-/

namespace Custody.Json

/-- A number as written. The fraction is empty when there is no point. -/
structure Numeral where
  negative : Bool
  whole : Nat
  fraction : List Digit
  exponent : Option Int
deriving DecidableEq, Repr

inductive Number where
  | natural (n : Nat)
  | negative (magnitude : Nat)
  | real (x : Float)
  | excessive

namespace Numeral

def ofNat (n : Nat) : Numeral := ⟨false, n, [], none⟩

def render (n : Numeral) : Bytes :=
  let sign := if n.negative then [45] else []
  let point := if n.fraction = [] then [] else 46 :: Digit.bytes n.fraction
  let power := match n.exponent with
    | none => []
    | some e => 101 :: (if e < 0 then 45 else 43) :: Bytes.ofNat e.natAbs
  sign ++ Bytes.ofNat n.whole ++ point ++ power

def splitSign : Bytes → Bool × Bytes
  | 45 :: rest => (true, rest)
  | rest => (false, rest)

def splitFraction? : Bytes → Option (List Digit × Bytes)
  | 46 :: rest =>
    let (ds, rest) := Digit.split rest
    if ds = [] then none else some (ds, rest)
  | rest => some ([], rest)

def exponent? : Bytes → Option (Option Int)
  | [] => some none
  | c :: rest =>
    if c = 101 ∨ c = 69 then
      let (negative, rest) := match rest with
        | 45 :: r => (true, r)
        | 43 :: r => (false, r)
        | r => (false, r)
      match Digit.split rest with
      | (d :: ds, []) =>
        let e : Int := Digit.number (d :: ds)
        some (some (if negative then -e else e))
      | _ => none
    else none

/-- The numeral with this written form: digits without a leading zero, an optional fraction and an
optional exponent. -/
def ofBytes? (s : Bytes) : Option Numeral := do
  let (negative, s) := splitSign s
  let (ds, s) := Digit.split s
  match ds with
  | [] => none
  | d :: more =>
    if d = .zero ∧ more ≠ [] then none
    else
      let (fraction, s) ← splitFraction? s
      let e ← exponent? s
      some ⟨negative, Digit.number ds, fraction, e⟩

/-- The greatest significand that is kept; digits past it are dropped. -/
def significandLimit : Nat := UInt64.size

/-- Takes digits into the significand while it fits, and counts the digits left out. -/
def gather (start : Nat) : List Digit → Nat × Nat
  | [] => (start, 0)
  | d :: ds =>
    if start * 10 + d.val < significandLimit then gather (start * 10 + d.val) ds
    else (start, ds.length + 1)

/-- Scales a positive double by a power of ten, in steps that a double can hold; `none` if the
result is too big. -/
def scale (x : Float) (e : Int) : Option Float :=
  if 0 ≤ e then
    if e ≤ 308 then
      let y := x * Float.ofScientific 1 false e.toNat
      if y.isInf then none else some y
    else if x == 0 then some x else none
  else
    if -308 ≤ e then some (x / Float.ofScientific 1 false (-e).toNat)
    else if x == 0 then some x
    else scale (x / Float.ofScientific 1 false 308) (e + 308)
termination_by (-e).toNat
decreasing_by omega

/-- The double that a numeral stands for: the significand, cut to 64 bits, times a power of ten. -/
def double? (n : Numeral) : Option Float :=
  let (significand, dropped) := gather 0 (Digit.ofNat n.whole)
  let (significand, left) := gather significand n.fraction
  let shift : Int := dropped - (n.fraction.length - left : Nat)
  let magnitude : Option Float :=
    match n.exponent with
    | none => scale (Float.ofNat significand) shift
    | some e =>
      if 0x80000000 ≤ e.natAbs then if significand = 0 ∨ e < 0 then some 0 else none
      else scale (Float.ofNat significand) (shift + e)
  magnitude.map fun x => if n.negative then -x else x

def value (n : Numeral) : Number :=
  let integral := n.fraction = [] ∧ n.exponent = none
  if integral ∧ n.negative = false ∧ n.whole < UInt64.size then .natural n.whole
  else if integral ∧ n.negative ∧ 0 < n.whole ∧ n.whole ≤ UInt64.size / 2 then .negative n.whole
  else
    match n.double? with
    | some x => .real x
    | none => .excessive

/-- How the numeral of a double is chosen: where its point may stand for it to be written without an
exponent, and which of two equally near decimals is taken. -/
structure Style where
  plain : Int → Bool
  tie : Decimal.Tie

/-- In a document there is no exponent as long as not more than four zeros follow the point and not
more than sixteen digits precede it; a tie goes to the even digit. -/
def Style.document : Style := ⟨fun point => -5 < point && point ≤ 16, .toEven⟩

def ofFloat (style : Style) (x : Float) : Numeral :=
  let negative := UInt64.size / 2 ≤ x.toBits.toNat
  let v := Decimal.Binary.ofBits x.toBits
  if v.mantissa = 0 then ⟨negative, 0, [.zero], none⟩
  else
    let (ds, point) := (v.shortest style.tie).significant
    if style.plain point then
      let digits := ds ++ List.replicate (point.toNat - ds.length) .zero
      let before := digits.take point.toNat
      let after := List.replicate (-point).toNat .zero ++ digits.drop point.toNat
      ⟨negative, Digit.number before, if after = [] then [.zero] else after, none⟩
    else
      ⟨negative, Digit.number (ds.take 1), ds.drop 1, some (point - 1)⟩

end Numeral

end Custody.Json
