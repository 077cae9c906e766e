import Custody.Failure
import Custody.Net.Address

/-!
Hosts: what stands before the port where an address is asked for in words. A host is given by one to
four numbers, by eight groups, or by a name; of names only the one of this host is known here.
-/

namespace Custody

inductive Address.Host where
  | four (octets : List Nat)
  | six (groups : List Nat) (scope : Nat)
deriving DecidableEq, Repr

namespace Address.Host

open Text (Read)
open Text.Read (mark many)

def here : Host := four [127, 0, 0, 1]

/-- A number in base ten, in base eight after a zero, or in base sixteen after a zero and an x. -/
def number : Read Nat := fun s =>
  let (base, digits) := match s with
    | '0' :: c :: rest => if c = 'x' ∨ c = 'X' then (16, rest) else (8, s)
    | _ => (10, s)
  let ds := digits.takeWhile (Text.isDigit base)
  if ds = [] then none else some (Text.numberOf base ds, digits.drop ds.length)

def numbers : Read (List Nat) := do
  let n ← number
  let ns ← many do
    mark '.'
    number
  pure (n :: ns)

/-- The four numbers that one to four stand for: the last one fills the places that are left. -/
def octets? (ns : List Nat) : Option (List Nat) :=
  let front := ns.dropLast
  let width := 4 - front.length
  let last := ns.getLast?.getD 0
  if front.length < 4 ∧ front.all (· < 256) ∧ last < 1 <<< (8 * width) then
    some (front ++ (List.range width).map fun i => (last >>> (8 * (width - 1 - i))) % 256)
  else none

def groups : Read Host := do
  let gs ← sixteen
  let z ← scope
  pure (six gs z)

def longestName : Nat × Nat := (253, 63)

/-- Tells whether a text may be the name of a host. A point may stand at its end. -/
def nameable (s : List Char) : Bool :=
  let name := if s.getLast? = some '.' then s.dropLast else s
  let fit := fun c : Char => c.isAlphanum || c == '-' || c == '_'
  let parts := (String.ofList name).splitOn "."
  s != [] && s.head? != some '-' && name.length ≤ longestName.1 &&
    (name = [] || parts.all fun p => p != "" && p.length ≤ longestName.2 && p.toList.all fit)

def unknown (why : String) : IoTrouble :=
  .reported .unresolved ("failed to lookup address information: " ++ why)

def lookup (s : List Char) : Except IoTrouble Host :=
  if s.contains '\x00' then .error (.system .invalidName)
  else
    match (numbers.whole? s).bind octets? with
    | some ns => .ok (four ns)
    | none =>
      match groups.whole? s with
      | some host => .ok host
      | none =>
        if s.map Char.toLower = "localhost".toList then .ok here
        else if nameable s then .error (unknown "Temporary failure in name resolution")
        else .error (unknown "Name or service not known")

def withPort (port : Nat) : Host → Address
  | four ns => .four ns port
  | six gs z => .six gs z port

end Address.Host

end Custody
