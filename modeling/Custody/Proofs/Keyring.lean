import Custody.Proofs.Secret
import Custody.Proofs.Snapshot

/-!
What a keyring opens for. A password unlocks it exactly if the key that is derived from it is the one that the check
was sealed for; a wrong password and a damaged check are told of in the same words.
-/

namespace Custody

theorem Secret.same_iff {a b : Bytes} : same a b = true ↔ digest a = digest b := decide_eq_true_iff

namespace Keyring

variable {k : Keyring} {password : Bytes} {master : SecretKey} {e : Failure}

/-- The check was sealed for this master key, from a text that passes for the check text. -/
def Confirms (k : Keyring) (master : SecretKey) : Prop :=
  ∃ plain, Sealing.Seals (checkKey master) k.checkNonce [] plain k.check ∧
    Secret.digest plain = Secret.digest checkText

theorem not_confirms_of_short (short : k.check.length < Sealing.tagLength) (master : SecretKey) :
    ¬k.Confirms master := by
  rintro ⟨plain, seals, -⟩
  exact Sealing.ne_sealText_of_short short _ _ _ _ seals.made

theorem unlock_of_refused (refused : Secret.deriveKey password k.salt k.cost = .error e) :
    k.unlock password = .error e := by
  rw [unlock, refused]
  rfl

theorem unlock_of_confirms (derived : Secret.deriveKey password k.salt k.cost = .ok master)
    (confirms : k.Confirms master) : k.unlock password = .ok master := by
  obtain ⟨plain, seals, same⟩ := confirms
  rw [unlock, derived, Except.bind, Secret.decrypt_eq_ok_iff.mpr seals]
  exact if_pos (Secret.same_iff.mpr same)

theorem unlock_of_unconfirmed (derived : Secret.deriveKey password k.salt k.cost = .ok master)
    (unconfirmed : ¬k.Confirms master) : k.unlock password = .error .authentication := by
  rw [unlock, derived, Except.bind]
  rcases Secret.decrypt_eq_ok_or (checkKey master) k.checkNonce [] k.check with ⟨plain, opened⟩ | refused
  · -- The check opens, but for another text than the one it stands for.
    have differ : ¬Secret.same plain checkText = true := fun same =>
      unconfirmed ⟨plain, Secret.decrypt_eq_ok_iff.mp opened, Secret.same_iff.mp same⟩
    rw [opened]
    exact if_neg differ
  · rw [refused]
    rfl

inductive Attempt (k : Keyring) (password : Bytes) : Except Failure SecretKey → Prop where
  | refused {e : Failure} (refused : Secret.deriveKey password k.salt k.cost = .error e) : Attempt k password (.error e)
  | confirmed {master : SecretKey} (derived : Secret.deriveKey password k.salt k.cost = .ok master)
      (confirms : k.Confirms master) : Attempt k password (.ok master)
  | unconfirmed {master : SecretKey} (derived : Secret.deriveKey password k.salt k.cost = .ok master)
      (unconfirmed : ¬k.Confirms master) : Attempt k password (.error .authentication)

theorem unlock_attempt (k : Keyring) (password : Bytes) : Attempt k password (k.unlock password) := by
  cases derived : Secret.deriveKey password k.salt k.cost with
  | error e =>
    rw [unlock_of_refused derived]
    exact .refused derived
  | ok master =>
    by_cases confirms : k.Confirms master
    · rw [unlock_of_confirms derived confirms]
      exact .confirmed derived confirms
    · rw [unlock_of_unconfirmed derived confirms]
      exact .unconfirmed derived confirms

def fresh (cost : Cost) (draw : Draw) (master : SecretKey) : Keyring :=
  ⟨draw.salt, cost, Sealing.sealText (checkKey master) draw.nonce [] checkText, draw.nonce, draw.now⟩

theorem create_eq (password : Bytes) (cost : Cost) (draw : Draw) :
    create password cost draw =
      (Secret.deriveKey password draw.salt cost).map fun master => (fresh cost draw master, master) := by
  have fits : checkText.length < Sealing.capacity := by decide
  simp only [create, Secret.encrypt_of_fits _ _ _ fits]
  cases Secret.deriveKey password draw.salt cost with
  | error e => rfl
  | ok master => rfl

theorem unlock_create {cost : Cost} {draw : Draw} (made : create password cost draw = .ok (k, master)) :
    k.unlock password = .ok master ∧ k.created = draw.now := by
  rw [create_eq] at made
  obtain ⟨key, derived, same⟩ := Except.map_eq_ok.mp made
  cases same
  exact ⟨unlock_of_confirms derived ⟨checkText, ⟨by decide, rfl⟩, rfl⟩, rfl⟩

/-- A new keyring is read back as it was written and opens for its password. Whatever a keyring holds, it opens for a
password exactly if the key of the password is confirmed by the check; a key that cannot be derived is told of as
such, and all else, a check too short for a tag included, as a failure of authentication. -/
theorem unlocks_iff_confirmed (password : Bytes) :
    (∀ cost draw k master, draw.now.Valid → create password cost draw = .ok (k, master) →
      codec.decode (codec.encode k) = .ok k ∧ k.unlock password = .ok master) ∧
    ∀ k : Keyring,
      (∀ master, k.unlock password = .ok master ↔
        Secret.deriveKey password k.salt k.cost = .ok master ∧ k.Confirms master) ∧
      (∀ e, k.unlock password = .error e ↔ Secret.deriveKey password k.salt k.cost = .error e ∨
        e = .authentication ∧
          ∃ master, Secret.deriveKey password k.salt k.cost = .ok master ∧ ¬k.Confirms master) ∧
      (k.check.length < Sealing.tagLength → ∀ master, ¬k.Confirms master) := by
  refine ⟨fun cost draw k master clock made => ?_, fun k => ⟨fun master => ⟨fun opened => ?_, ?_⟩,
    fun e => ⟨fun failed => ?_, ?_⟩, not_confirms_of_short⟩⟩
  · obtain ⟨opened, now⟩ := unlock_create made
    exact ⟨(codec_faithful (now ▸ clock)).decode_encode, opened⟩
  · have went := unlock_attempt k password
    rw [opened] at went
    cases went with
    | confirmed derived confirms => exact ⟨derived, confirms⟩
  · rintro ⟨derived, confirms⟩
    exact unlock_of_confirms derived confirms
  · have went := unlock_attempt k password
    rw [failed] at went
    cases went with
    | refused refused => exact .inl refused
    | unconfirmed derived unconfirmed => exact .inr ⟨rfl, _, derived, unconfirmed⟩
  · rintro (refused | ⟨rfl, master, derived, unconfirmed⟩)
    · exact unlock_of_refused refused
    · exact unlock_of_unconfirmed derived unconfirmed

end Keyring

def Draw.plain : Draw :=
  ⟨⟨List.replicate 32 0, rfl⟩, ⟨List.replicate 24 0, rfl⟩, ⟨0, 0⟩, "scratch"⟩

namespace Keyring

/-- A new keyring opens for its password, and no longer once its check is cut to fewer bytes than a tag has. -/
theorem unlocks_iff_confirmed_plain : ∃ k master, create [112] ⟨8, 1, 1⟩ .plain = .ok (k, master) ∧
    codec.decode (codec.encode k) = .ok k ∧ k.unlock [112] = .ok master ∧
      Keyring.unlock { k with check := k.check.take 15 } [112] = .error .authentication := by
  have clock : Draw.plain.now.Valid := by decide
  obtain ⟨k, master, made⟩ : ∃ k master, create [112] ⟨8, 1, 1⟩ .plain = .ok (k, master) :=
    ⟨_, _, create_eq _ _ _⟩
  obtain ⟨read, opened⟩ := (unlocks_iff_confirmed [112]).1 _ _ _ _ clock made
  obtain ⟨derived, -⟩ := (((unlocks_iff_confirmed [112]).2 k).1 master).mp opened
  obtain ⟨-, failed, short⟩ := (unlocks_iff_confirmed [112]).2 { k with check := k.check.take 15 }
  have cut : (k.check.take 15).length < Sealing.tagLength := Nat.lt_of_le_of_lt (List.length_take_le _ _) (by decide)
  exact ⟨k, master, made, read, opened, (failed _).mpr (.inr ⟨rfl, master, derived, short cut master⟩)⟩

end Keyring

end Custody
