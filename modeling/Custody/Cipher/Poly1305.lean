import Custody.Bytes

/-!
The Poly1305 authenticator. A message is a polynomial whose coefficients are its blocks of sixteen
bytes; the tag is its value at a secret point, modulo a prime, plus a secret number.
-/

namespace Custody.Poly1305

def prime : Nat := Nat.pow 2 130 - 5

/-- The bits of the point that are kept. -/
def mask : Nat := 0x0ffffffc0ffffffc0ffffffc0fffffff

/-- A block as a number, with a one after its last byte. -/
def coefficient (block : Bytes) : Nat := Bytes.ofLittleEndian block + Nat.pow 256 block.length

def evaluate (point : Nat) (value : Nat) (message : Bytes) : Nat :=
  if message = [] then value
  else
    evaluate point ((value + coefficient (message.take 16)) * point % prime) (message.drop 16)
termination_by message.length
decreasing_by
  rename_i h
  have := List.length_pos_iff.mpr h
  simp only [List.length_drop]
  omega

def tag (key message : Bytes) : Bytes :=
  let point := Bytes.ofLittleEndian (key.take 16) &&& mask
  let pad := Bytes.ofLittleEndian (key.drop 16)
  Bytes.littleEndian 16 (evaluate point 0 message + pad)

end Custody.Poly1305
