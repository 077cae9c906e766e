import Custody.Fault
import Custody.Json.Numeral

/-!
Values of a settings file: texts, numbers, truth values, points in time, arrays, and tables whose
members keep their order.
-/

namespace Custody

/-- A value of a settings file. Points in time are only recognized. -/
inductive Toml where
  | text (s : String)
  | integer (i : Int)
  | real (x : Float)
  | boolean (b : Bool)
  | moment
  | array (items : List Toml)
  | table (members : List (String × Toml))
deriving Inhabited

namespace Toml

/-- A double is shown with all its digits and a point among them; a tie goes to the greater one. -/
def realStyle : Json.Numeral.Style := ⟨fun _ => true, .up⟩

def realText (x : Float) : String :=
  if x.isNaN then "NaN"
  else if x.isInf then if x < 0 then "-inf" else "inf"
  else Bytes.ascii (Json.Numeral.ofFloat realStyle x).render

def found : Toml → Found
  | text s => .text s
  | integer i => .integer i
  | real x => .real (realText x)
  | boolean b => .boolean b
  | moment => .map
  | array _ => .sequence
  | table _ => .map

def mismatch (expected : String) (v : Toml) : Fault := .invalidType v.found expected

def asText (expected : String) : Toml → Except Fault String
  | text s => .ok s
  | v => .error (v.mismatch expected)

def asNatural (title : String) : Toml → Except Fault Nat
  | integer i => if 0 ≤ i then .ok i.toNat else .error (.invalidValue (.integer i) title)
  | v => .error (v.mismatch title)

def asBoolean : Toml → Except Fault Bool
  | boolean b => .ok b
  | v => .error (v.mismatch "a boolean")

end Toml

end Custody
