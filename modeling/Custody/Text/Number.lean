/-!
Digits in any base up to sixteen, and the numbers they make.
-/

namespace Custody.Text

def digit? (base : Nat) (c : Char) : Option Nat :=
  let n := c.toNat
  let d := if 48 ≤ n && n ≤ 57 then n - 48 else if 97 ≤ n && n ≤ 102 then n - 87
    else if 65 ≤ n && n ≤ 70 then n - 55 else base
  if d < base then some d else none

def isDigit (base : Nat) (c : Char) : Bool := (digit? base c).isSome

def numberOf (base : Nat) (cs : List Char) : Nat :=
  (cs.filterMap (digit? base)).foldl (fun n d => n * base + d) 0

end Custody.Text
