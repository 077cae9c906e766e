import Custody.Json.Numeral

/-!
JSON documents as trees. A tree keeps numbers as written and members in their order, repeated names
included. A string is kept decoded; one whose escapes or bytes make no text is kept as `none`, which
is enough for a value that nobody reads.
-/

namespace Custody

inductive Json where
  | null
  | bool (b : Bool)
  | number (n : Json.Numeral)
  | string (text : Option String)
  | array (items : List Json)
  | object (members : List (Option String × Json))
deriving Inhabited, Repr

namespace Json

def text (s : String) : Json := .string (some s)

def nat (n : Nat) : Json := .number (.ofNat n)

def record (members : List (String × Json)) : Json :=
  .object (members.map fun m => (some m.1, m.2))

mutual

/-- Tells whether a document nests no deeper than the given number of arrays and objects. -/
def shallow (limit : Nat) : Json → Bool
  | .array items => 0 < limit && shallowItems (limit - 1) items
  | .object members => 0 < limit && shallowMembers (limit - 1) members
  | _ => true

def shallowItems (limit : Nat) : List Json → Bool
  | [] => true
  | j :: rest => shallow limit j && shallowItems limit rest

def shallowMembers (limit : Nat) : List (Option String × Json) → Bool
  | [] => true
  | (_, j) :: rest => shallow limit j && shallowMembers limit rest

end

end Json

end Custody
