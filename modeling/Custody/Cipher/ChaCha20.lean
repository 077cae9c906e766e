import Custody.Bytes
import Custody.Cipher.Square

/-!
The ChaCha20 stream cipher. A block of the keystream is made from a key, a nonce and a counter by ten
double rounds over sixteen words; the same rounds also derive a key from a key and a longer nonce.
-/

namespace Custody.ChaCha20

abbrev State := Square UInt32

def rotate (x : UInt32) (n : UInt32) : UInt32 := (x <<< n) ||| (x >>> (32 - n))

def quarter (a b c d : UInt32) : UInt32 × UInt32 × UInt32 × UInt32 :=
  let a := a + b
  let d := rotate (d ^^^ a) 16
  let c := c + d
  let b := rotate (b ^^^ c) 12
  let a := a + b
  let d := rotate (d ^^^ a) 8
  let c := c + d
  (a, rotate (b ^^^ c) 7, c, d)

def doubleRound (v : State) : State := Square.lines.foldl (Square.mixAlong quarter) v

/-- Ten double rounds. -/
def rounds (v : State) : State := Nat.repeat doubleRound 10 v

def initial (key tail : Bytes) : State :=
  let constants : Vector UInt32 4 := #v[0x61707865, 0x3320646e, 0x79622d32, 0x6b206574]
  let bytes := key ++ tail
  constants ++ (Vector.ofFn fun i : Fin 12 =>
    (Bytes.ofLittleEndian ((bytes.drop (4 * i)).take 4)).toUInt32)

def serialize (ws : List UInt32) : Bytes := ws.flatMap fun w => Bytes.littleEndian 4 w.toNat

/-- The block of the keystream with this number; the nonce has twelve bytes. -/
def block (key nonce : Bytes) (counter : Nat) : Bytes :=
  let v := initial key (Bytes.littleEndian 4 counter ++ nonce)
  serialize (v.zipWith (· + ·) (rounds v)).toList

/-- Combines data with the keystream from this block on; doing it twice gives the data back. -/
def apply (key nonce : Bytes) (counter : Nat) (data : Bytes) : Bytes :=
  if data = [] then []
  else
    Bytes.xor (data.take 64) (block key nonce counter) ++
      apply key nonce (counter + 1) (data.drop 64)
termination_by data.length
decreasing_by
  rename_i h
  have := List.length_pos_iff.mpr h
  simp only [List.length_drop]
  omega

/-- A key derived from a key and sixteen bytes: the outer words after the rounds. -/
def deriveKey (key nonce : Bytes) : Bytes :=
  let v := (rounds (initial key nonce)).toList
  serialize (v.take 4 ++ v.drop 12)

end Custody.ChaCha20
