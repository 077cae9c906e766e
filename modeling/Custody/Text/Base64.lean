import Custody.Bytes

/-!
Base64 with the standard alphabet. Every byte string has exactly one written form: padding is
required and exact, and the bits that padding leaves unused must be zero. A text that breaks a
rule is refused with the first flaw met.
-/

namespace Custody.Base64

inductive Flaw where
  | symbol (byte : UInt8) (offset : Nat)
  | length (n : Nat)
  | padding
  | lastSymbol (byte : UInt8) (offset : Nat)
deriving DecidableEq, Repr

def Flaw.message : Flaw → String
  | .symbol byte offset => s!"Invalid symbol {byte}, offset {offset}."
  | .length n => s!"Invalid input length: {n}"
  | .padding => "Invalid padding"
  | .lastSymbol byte offset => s!"Invalid last symbol {byte}, offset {offset}."

def pad : UInt8 := 61

/-- The symbol of a six-bit value: letters, digits, `+` and `/`. -/
def symbol (v : Nat) : UInt8 :=
  if v < 26 then (65 + v).toUInt8
  else if v < 52 then (71 + v).toUInt8
  else if v < 62 then (v - 4).toUInt8
  else if v = 62 then 43
  else 47

def value? (c : UInt8) : Option Nat :=
  if 65 ≤ c ∧ c ≤ 90 then some (c.toNat - 65)
  else if 97 ≤ c ∧ c ≤ 122 then some (c.toNat - 71)
  else if 48 ≤ c ∧ c ≤ 57 then some (c.toNat + 4)
  else if c = 43 then some 62
  else if c = 47 then some 63
  else none

def encode : Bytes → Bytes
  | a :: b :: c :: rest =>
    let n := (a.toNat * 256 + b.toNat) * 256 + c.toNat
    symbol (n / 262144) :: symbol (n / 4096 % 64) :: symbol (n / 64 % 64) :: symbol (n % 64)
      :: encode rest
  | [a, b] =>
    let n := (a.toNat * 256 + b.toNat) * 4
    [symbol (n / 4096), symbol (n / 64 % 64), symbol (n % 64), pad]
  | [a] =>
    let n := a.toNat * 16
    [symbol (n / 64), symbol (n % 64), pad, pad]
  | [] => []

def text (b : Bytes) : String := Bytes.ascii (encode b)

/-- The values of symbols that stand at `offset` and after, or the first that is none. -/
def values (offset : Nat) : Bytes → Except Flaw (List Nat)
  | [] => .ok []
  | c :: rest =>
    match value? c with
    | none => .error (.symbol c offset)
    | some v => (values (offset + 1) rest).map (v :: ·)

def number (vs : List Nat) : Nat := vs.foldl (· * 64 + ·) 0

/-- The last group of a text, one to four bytes at `offset`. -/
def closing (offset : Nat) (group : Bytes) : Except Flaw Bytes :=
  let body := group.takeWhile (· != pad)
  let pads := group.drop body.length
  match values offset body with
  | .error flaw => .error flaw
  | .ok vs =>
    if pads ≠ [] ∧ (body.length < 2 ∨ pads.any (· != pad)) then
      .error (.symbol pad (offset + body.length))
    else if body.length < 2 then .error (.length (offset + body.length))
    else if group.length ≠ 4 then .error .padding
    else
      let unused := 2 * pads.length
      if number vs % Nat.pow 2 unused ≠ 0 then
        .error (.lastSymbol (body.getLastD pad) (offset + body.length - 1))
      else .ok (Bytes.bigEndian (3 - pads.length) (number vs / Nat.pow 2 unused))

/-- The groups of a text from `offset` on; all but the last hold four symbols. -/
def groups (offset : Nat) : Bytes → Except Flaw Bytes
  | a :: b :: c :: d :: e :: rest =>
    match values offset [a, b, c, d] with
    | .error flaw => .error flaw
    | .ok vs => (groups (offset + 4) (e :: rest)).map (Bytes.bigEndian 3 (number vs) ++ ·)
  | [] => .ok []
  | group => closing offset group

/-- A lone last byte that is no symbol, in a text one byte too long. -/
def stray? (s : Bytes) : Option Flaw :=
  match s.getLast? with
  | some c =>
    if s.length % 4 = 1 ∧ c ≠ pad ∧ value? c = none then some (.symbol c (s.length - 1)) else none
  | none => none

def decode (s : Bytes) : Except Flaw Bytes :=
  match stray? s with
  | some flaw => .error flaw
  | none => groups 0 s

end Custody.Base64
