import Custody.Proofs.Cipher.Sealing
import Custody.Secret
import Mathlib.Tactic.SplitIfs

/-!
Keys derived from passwords, and data encrypted under a key. A password that is empty or too long gives no key, nor
does a cost that cannot be used. Decryption undoes encryption and opens nothing else; a key of the wrong length is
refused whatever it is to be used for.
-/

namespace Custody.Secret

open Sealing (Seals)

variable {password : Bytes} {salt : Salt} {cost : Cost}

theorem deriveKey_nil (salt : Salt) (cost : Cost) :
    deriveKey [] salt cost = .error (.invalidInput "Password cannot be empty") := rfl

theorem deriveKey_of_flaw {flaw : String} (some : password ≠ []) (flawed : Argon2id.flaw? cost = .some flaw) :
    deriveKey password salt cost = .error (.crypto ("Invalid KDF parameters: " ++ flaw)) := by
  rw [deriveKey, if_neg some, flawed]

/-- No key is derived from a password that is too long. At a cost that cannot be used, this is told of first. -/
theorem deriveKey_of_long (long : Argon2id.longestPassword < password.length) (salt : Salt) (cost : Cost) :
    ∃ why, deriveKey password salt cost = .error (.crypto why) := by
  have some : password ≠ [] := List.ne_nil_of_length_pos (Nat.zero_lt_of_lt long)
  cases flawed : Argon2id.flaw? cost with
  | some flaw => exact ⟨_, deriveKey_of_flaw some flawed⟩
  | none =>
    rw [deriveKey, if_neg some, flawed]
    exact ⟨_, if_pos long⟩

theorem exists_deriveKey (some : password ≠ []) (flawless : Argon2id.flaw? cost = none)
    (short : password.length ≤ Argon2id.longestPassword) : ∃ key, deriveKey password salt cost = .ok key := by
  rw [deriveKey, if_neg some, flawless]
  exact ⟨_, if_neg (Nat.not_lt.mpr short)⟩

theorem deriveKey_cases (some : password ≠ []) :
    (∃ why, deriveKey password salt cost = .error (.crypto why)) ∨ ∃ key, deriveKey password salt cost = .ok key := by
  cases flawed : Argon2id.flaw? cost with
  | some flaw => exact .inl ⟨_, deriveKey_of_flaw some flawed⟩
  | none =>
    by_cases short : password.length ≤ Argon2id.longestPassword
    · exact .inr (exists_deriveKey some flawed short)
    · exact .inl (deriveKey_of_long (Nat.not_le.mp short) salt cost)

variable {key : SecretKey} {nonce : Nonce} {aad plain sealedText : Bytes}

theorem withKey_val {α : Type} (key : SecretKey) (f : SecretKey → Except Failure α) : withKey key.val f = f key :=
  dif_pos key.property

theorem withKey_of_length_ne {α : Type} {key : Bytes} (wrong : key.length ≠ 32) (f : SecretKey → Except Failure α) :
    withKey key f = .error (.crypto s!"Invalid key length: expected 32, got {key.length}") := dif_neg wrong

theorem encrypt_of_fits (key : SecretKey) (nonce : Nonce) (aad : Bytes) (fits : plain.length < Sealing.capacity) :
    encrypt key.val nonce aad plain = .ok (Sealing.sealText key nonce aad plain) := by
  rw [encrypt, withKey_val]
  exact if_neg (Nat.not_le.mpr fits)

theorem encrypt_of_long (key : SecretKey) (nonce : Nonce) (aad : Bytes) (long : Sealing.capacity ≤ plain.length) :
    encrypt key.val nonce aad plain = .error (.crypto "Encryption failed: aead::Error") := by
  rw [encrypt, withKey_val]
  exact if_pos long

theorem encrypt_eq_ok_iff :
    encrypt key.val nonce aad plain = .ok sealedText ↔ Seals key nonce aad plain sealedText := by
  constructor
  · intro made
    by_cases fits : plain.length < Sealing.capacity
    · rw [encrypt_of_fits key nonce aad fits] at made
      cases made
      exact ⟨fits, rfl⟩
    · rw [encrypt_of_long key nonce aad (Nat.not_lt.mp fits)] at made
      cases made
  · rintro ⟨fits, rfl⟩
    exact encrypt_of_fits key nonce aad fits

theorem decrypt_eq_ok_iff :
    decrypt key.val nonce aad sealedText = .ok plain ↔ Seals key nonce aad plain sealedText := by
  rw [decrypt, withKey_val]
  constructor
  · intro opened
    split_ifs at opened with bounded
    split at opened
    · rename_i found
      cases opened
      have made := Sealing.open?_eq_some_iff.mp found
      rw [made, Sealing.length_sealText] at bounded
      exact ⟨Nat.lt_of_add_lt_add_right bounded, made⟩
    · cases opened
  · intro seals
    rw [if_pos seals.verifies.bounded, Sealing.open?_eq_some_iff.mpr seals.made]

theorem decrypt_eq_ok_or (key : SecretKey) (nonce : Nonce) (aad sealedText : Bytes) :
    (∃ plain, decrypt key.val nonce aad sealedText = .ok plain) ∨
      decrypt key.val nonce aad sealedText = .error .authentication := by
  rw [decrypt, withKey_val]
  split_ifs
  · split
    · exact .inl ⟨_, rfl⟩
    · exact .inr rfl
  · exact .inr rfl

theorem decrypt_eq_authentication_iff :
    decrypt key.val nonce aad sealedText = .error .authentication ↔ ∀ plain, ¬Seals key nonce aad plain sealedText := by
  constructor
  · intro refused plain seals
    cases refused.symm.trans (decrypt_eq_ok_iff.mpr seals)
  · intro none
    rcases decrypt_eq_ok_or key nonce aad sealedText with ⟨plain, opened⟩ | refused
    · exact absurd (decrypt_eq_ok_iff.mp opened) (none plain)
    · exact refused

/-- Under a key of the right length a text opens to a plaintext exactly if it is what that is encrypted to: its
ciphertext and the tag, and no other text; whatever else there is fails to authenticate. A key of another length is
refused both ways. -/
theorem decryption_inverts_encryption (nonce : Nonce) (aad : Bytes) :
    (∀ (key : SecretKey) (c : Bytes),
      (∀ p, decrypt key.val nonce aad c = .ok p ↔ encrypt key.val nonce aad p = .ok c) ∧
      (decrypt key.val nonce aad c = .error .authentication ↔ ∀ p, encrypt key.val nonce aad p ≠ .ok c) ∧
      (c.length < 16 → decrypt key.val nonce aad c = .error .authentication)) ∧
    (∀ (key : SecretKey) (p : Bytes), p.length < Sealing.capacity →
      let cipher := Sealing.crypt key nonce p
      let made := cipher ++ Sealing.tag key nonce aad cipher
      encrypt key.val nonce aad p = .ok made ∧ made.length = p.length + 16 ∧
        ∀ c, decrypt key.val nonce aad c = .ok p → c = made) ∧
    ∀ key : Bytes, key.length ≠ 32 → ∀ p c,
      let refused := Failure.crypto s!"Invalid key length: expected 32, got {key.length}"
      encrypt key nonce aad p = .error refused ∧ decrypt key nonce aad c = .error refused := by
  refine ⟨fun key c => ⟨fun p => ?_, ?_, fun short => ?_⟩, fun key p fits => ⟨?_, ?_, fun c opened => ?_⟩,
    fun key wrong p c => ?_⟩
  · rw [decrypt_eq_ok_iff, encrypt_eq_ok_iff]
  · simp only [decrypt_eq_authentication_iff, ne_eq, encrypt_eq_ok_iff]
  · refine decrypt_eq_authentication_iff.mpr fun p seals => ?_
    exact Sealing.ne_sealText_of_short short key nonce aad p seals.made
  · exact encrypt_eq_ok_iff.mpr ⟨fits, rfl⟩
  · exact Sealing.length_sealText key nonce aad p
  · exact (decrypt_eq_ok_iff.mp opened).made
  · exact ⟨withKey_of_length_ne wrong _, withKey_of_length_ne wrong _⟩

end Custody.Secret
