import Custody.Json.Reader
import Custody.Json.Tagged
import Custody.Json.Writer

/-!
Documents as plain values. The canonical form of a document has the members of every object in
ascending order, each name once with its last value, and every number in its shortest form.
-/

namespace Custody.Json

/-- The shortest numeral that stands for the same number. -/
def Numeral.normal (n : Numeral) : Numeral :=
  match n.value with
  | .real x => .ofFloat .document x
  | _ => n

def memberName (m : Option String × Json) : String := m.1.getD ""

mutual

/-- The canonical form of a document. -/
def canonical : Json → Json
  | .number n => .number n.normal
  | .array items => .array (canonicalItems items)
  | .object members => .object (canonicalMembers members [])
  | j => j

def canonicalItems : List Json → List Json
  | [] => []
  | j :: rest => canonical j :: canonicalItems rest

/-- Puts the canonical forms of members in their places among those already there. -/
def canonicalMembers : List (Option String × Json) → List (Option String × Json) →
    List (Option String × Json)
  | [], done => done
  | (s, j) :: rest, done => canonicalMembers rest (Catalog.place memberName (s, canonical j) done)

end

def maxDepth : Nat := 127

namespace Codec

def anything : Codec Json where
  write := id
  read _ j := if j.readable && j.shallow maxDepth then .ok j.canonical else .error .malformed

def decode {α : Type} (c : Codec α) (s : Bytes) : Except Fault α :=
  match parse? s with
  | some j => c.read .text j
  | none => .error .malformed

def encode {α : Type} (c : Codec α) (a : α) : Bytes := (c.write a).render

end Codec

/-- How the fault in a text is told. What is told may name the place of the fault, or another fault that
comes before it in the text, so it may depend on all of the text. -/
abbrev Wording := Bytes → Fault → String

/-- The words of the fault, without its place. -/
def Wording.plain : Wording := fun _ fault => fault.message

end Custody.Json
