import Custody.Cipher.Argon2id
import Custody.Cipher.Sealing

/-!
What is done with secrets: a master key is derived from a password, every purpose has a key of its own
derived from the master key, data are encrypted under such a key, and secrets are compared by digest.
-/

namespace Custody

/-- Random bytes that make equal passwords give different keys. -/
abbrev Salt := Bytes.Sized 32

def SecretKey.described : String := "MasterKey([REDACTED])"

namespace Secret

def digest (secret : Bytes) : Bytes :=
  Blake2b.digest 32 (Bytes.ofText "keylock-secret-compare" ++ secret)

def same (a b : Bytes) : Bool := digest a = digest b

def describe (secret : Bytes) : String := s!"SensitiveBytes([REDACTED; {secret.length} bytes])"

def subkey (key : SecretKey) (purpose : Bytes) : SecretKey :=
  ⟨Blake2b.digest 32 (key.val ++ purpose ++ Bytes.ofText "keylock-subkey"), by simp⟩

def deriveKey (password : Bytes) (salt : Salt) (cost : Cost) : Except Failure SecretKey :=
  if password = [] then .error (.invalidInput "Password cannot be empty")
  else
    match Argon2id.flaw? cost with
    | some flaw => .error (.crypto ("Invalid KDF parameters: " ++ flaw))
    | none =>
      if Argon2id.longestPassword < password.length then
        .error (.crypto "Key derivation failed: password is too long")
      else .ok ⟨Argon2id.derive cost 32 password salt.val, by simp⟩

def withKey {α : Type} (key : Bytes) (f : SecretKey → Except Failure α) : Except Failure α :=
  if h : key.length = 32 then f ⟨key, h⟩
  else .error (.crypto s!"Invalid key length: expected 32, got {key.length}")

/-- Encrypts data. What is beyond the capacity of the cipher is refused. -/
def encrypt (key : Bytes) (nonce : Nonce) (aad plain : Bytes) : Except Failure Bytes :=
  withKey key fun key =>
    if Sealing.capacity ≤ plain.length then .error (.crypto "Encryption failed: aead::Error")
    else .ok (Sealing.sealText key nonce aad plain)

/-- Decrypts data. What is longer than anything that is encrypted is not looked at. -/
def decrypt (key : Bytes) (nonce : Nonce) (aad sealed : Bytes) : Except Failure Bytes :=
  withKey key fun key =>
    if sealed.length < Sealing.capacity + Sealing.tagLength then
      match Sealing.open? key nonce aad sealed with
      | some plain => .ok plain
      | none => .error .authentication
    else .error .authentication

end Secret

end Custody
