import Custody.Cipher.ChaCha20
import Custody.Cipher.Poly1305

/-!
Authenticated encryption with XChaCha20-Poly1305. Sealing encrypts a plaintext and adds a tag over
the ciphertext and the associated data; opening checks the tag first.
-/

namespace Custody

abbrev SecretKey := Bytes.Sized 32

/-- A number used once. -/
abbrev Nonce := Bytes.Sized 24

namespace Sealing

def tagLength : Nat := 16

/-- Plaintexts of this length and more are refused: the keystream counts its blocks with 32 bits. -/
def capacity : Nat := 64 * 0xFFFFFFFF

/-- The key and the short nonce that a key and a nonce of 24 bytes stand for. -/
def inner (key : SecretKey) (nonce : Nonce) : Bytes × Bytes :=
  (ChaCha20.deriveKey key.val (nonce.val.take 16), List.replicate 4 0 ++ nonce.val.drop 16)

def filler (b : Bytes) : Bytes := List.replicate ((16 - b.length % 16) % 16) 0

/-- What the tag is computed from. -/
def authenticated (aad cipher : Bytes) : Bytes :=
  aad ++ filler aad ++ cipher ++ filler cipher ++
    Bytes.littleEndian 8 aad.length ++ Bytes.littleEndian 8 cipher.length

def tag (key : SecretKey) (nonce : Nonce) (aad cipher : Bytes) : Bytes :=
  let (k, n) := inner key nonce
  Poly1305.tag ((ChaCha20.block k n 0).take 32) (authenticated aad cipher)

/-- Combines data with the keystream after its first block. -/
def crypt (key : SecretKey) (nonce : Nonce) (data : Bytes) : Bytes :=
  let (k, n) := inner key nonce
  ChaCha20.apply k n 1 data

def sealText (key : SecretKey) (nonce : Nonce) (aad plain : Bytes) : Bytes :=
  let cipher := crypt key nonce plain
  cipher ++ tag key nonce aad cipher

def open? (key : SecretKey) (nonce : Nonce) (aad sealed : Bytes) : Option Bytes :=
  if sealed.length < tagLength then none
  else
    let cipher := sealed.take (sealed.length - tagLength)
    if sealed.drop (sealed.length - tagLength) = tag key nonce aad cipher then
      some (crypt key nonce cipher)
    else none

end Sealing

end Custody
