import Custody.Text.Number
import Custody.Text.Quoted
import Custody.Text.Read

/-!
Addresses of the two internet families, with a port. An address of eight groups may leave out one row
of zero groups, and may write its last two groups as four numbers; it is written with the longest row
of zeros left out.
-/

namespace Custody

inductive Address where
  | four (octets : List Nat) (port : Nat)
  | six (groups : List Nat) (scope port : Nat)
deriving DecidableEq, Repr

namespace Address

open Text (Read)
open Text.Read (mark)

/-- A number below a limit, of at most `most` digits; zeros in front are a matter of `padded`. -/
def number (base limit : Nat) (most : Option Nat) (padded : Bool) : Read Nat := fun s =>
  let ds := s.takeWhile (Text.isDigit base)
  let n := Text.numberOf base ds
  if ds = [] || limit ≤ n || most.any (· < ds.length) ||
    (!padded && 1 < ds.length && ds.head? = some '0') then none
  else some (n, s.drop ds.length)

def octet : Read Nat := number 10 256 (some 3) false

def octets : Read (List Nat) := do
  let a ← octet
  mark '.'
  let b ← octet
  mark '.'
  let c ← octet
  mark '.'
  let d ← octet
  pure [a, b, c, d]

def paired : List Nat → List Nat
  | [a, b, c, d] => [a * 256 + b, c * 256 + d]
  | _ => []

def separated {α : Type} (first : Bool) (read : Read α) : Read α := fun s =>
  if first then read s
  else
    match s with
    | ':' :: rest => read rest
    | _ => none

/-- At most so many groups, and whether the last two were written as four numbers. -/
def groups : (room : Nat) → (first : Bool) → List Char → List Nat × Bool × List Char
  | 0, _, s => ([], false, s)
  | room + 1, first, s =>
    match if room = 0 then none else separated first octets s with
    | some (ns, rest) => (paired ns, true, rest)
    | none =>
      match separated first (number 16 65536 (some 4) true) s with
      | some (g, rest) => let (gs, mixed, rest) := groups room false rest; (g :: gs, mixed, rest)
      | none => ([], false, s)

def sixteen : Read (List Nat) := fun s =>
  let (front, mixed, s) := groups 8 true s
  if front.length = 8 then some (front, s)
  else if mixed then none
  else
    match s with
    | ':' :: ':' :: s =>
      let (back, _, s) := groups (8 - (front.length + 1)) true s
      some (front ++ List.replicate (8 - front.length - back.length) 0 ++ back, s)
    | _ => none

def port : Read Nat := do
  mark ':'
  number 10 65536 none true

def scope : Read Nat := do
  let z ← Read.optional do
    mark '%'
    number 10 UInt32.size none true
  pure (z.getD 0)

def bracketed : Read Address := do
  mark '['
  let gs ← sixteen
  let z ← scope
  mark ']'
  let p ← port
  pure (six gs z p)

def dotted : Read Address := do
  let a ← octets
  let p ← port
  pure (four a p)

def ofText? (s : String) : Option Address := (dotted.orElse bracketed).whole? s.toList

def zeros (gs : List Nat) : Nat := (gs.takeWhile (· = 0)).length

/-- Where the first of the longest rows of zeros starts, and its length. -/
def longestZeros (gs : List Nat) : Nat × Nat :=
  (List.range gs.length).foldl (fun best i =>
    let n := zeros (gs.drop i)
    if best.2 < n then (i, n) else best) (0, 0)

def dots (ns : List Nat) : String := ".".intercalate (ns.map toString)

def colons (gs : List Nat) : String := ":".intercalate (gs.map Text.hex)

def groupsText (gs : List Nat) : String :=
  match gs with
  | [0, 0, 0, 0, 0, 0xffff, a, b] => "::ffff:" ++ dots [a / 256, a % 256, b / 256, b % 256]
  | gs =>
    let (start, n) := longestZeros gs
    if 1 < n then colons (gs.take start) ++ "::" ++ colons (gs.drop (start + n)) else colons gs

def text : Address → String
  | four a p => dots a ++ ":" ++ toString p
  | six gs z p =>
    let scope := if z = 0 then "" else "%" ++ toString z
    "[" ++ groupsText gs ++ scope ++ "]:" ++ toString p

end Address

end Custody
