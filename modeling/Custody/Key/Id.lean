import Custody.Failure
import Custody.Json.Codec

/-!
Names of keys. A name is a text of 1 to 1024 bytes without control characters; names are ordered by
their texts.
-/

namespace Custody

/-- Control characters: code points below the space, and from delete to the end of that block. -/
def isControl (c : Char) : Bool := c.toNat < 0x20 || (0x7f ≤ c.toNat && c.toNat < 0xa0)

def KeyId.maxLength : Nat := 1024

def KeyId.Valid (s : String) : Prop :=
  s.isEmpty = false ∧ s.utf8ByteSize ≤ KeyId.maxLength ∧ s.toList.any isControl = false

structure KeyId where
  text : String
  valid : KeyId.Valid text
deriving DecidableEq

namespace KeyId

/-- The name with this text, or the first rule that the text breaks. -/
def ofText (s : String) : Except Failure KeyId :=
  if h₁ : s.isEmpty then .error (.invalidInput "KeyId cannot be empty")
  else if h₂ : maxLength < s.utf8ByteSize then
    .error (.invalidInput s!"KeyId exceeds {maxLength} bytes")
  else if h₃ : s.toList.any isControl then
    .error (.invalidInput "KeyId cannot contain control characters")
  else .ok ⟨s, by simpa using h₁, by omega, by simpa using h₃⟩

def bytes (id : KeyId) : Bytes := Bytes.ofText id.text

def describe (id : KeyId) : String := "KeyId(" ++ Text.quoted id.text ++ ")"

def codec : Json.Codec KeyId :=
  Json.Codec.text.refine text fun s =>
    match ofText s with
    | .ok id => .ok id
    | .error e => .error (.refused e.message)

end KeyId

end Custody
