import Custody.Proofs.Archive.Scan
import Custody.Proofs.Vault.Reopening

/-!
Why archives are refused. What a header gets wrong is found before the password is looked at or a key is derived,
and is always damage; then come an empty password, what the key derivation refuses, the tag and the payload, in
this order. An archive that was cut or has grown is damaged whatever password is tried, for its header tells how
long it was.
-/

namespace Custody

/-- Two suites decrypt alike, and derive the same keys at every cost that an archive may ask for. -/
structure Suite.AlikeWithinLimits (first second : Suite) : Prop where
  deriveKey : ∀ password salt cost, cost.withinLimits = true →
    first.deriveKey password salt cost = second.deriveKey password salt cost
  decrypt : first.decrypt = second.decrypt

namespace Archive

variable {b c password : Bytes} {p : Parts}

theorem decodeWith_of_unframed (unframed : ¬Framed b) :
    ∃ why, ∀ suite password, decodeWith suite b password = .error (.corrupt why) := by
  obtain ⟨why, refused⟩ := split_of_unframed unframed
  refine ⟨why, fun suite password => ?_⟩
  rw [decodeWith, refused]
  rfl

theorem decodeWith_congr {first second : Suite} (alike : first.AlikeWithinLimits second) (b password : Bytes) :
    decodeWith first b password = decodeWith second b password := by
  cases parts : split b with
  | error e => rw [decodeWith, decodeWith, parts]; rfl
  | ok p =>
    obtain ⟨-, -, limited⟩ := assemble_split parts
    have derived := alike.deriveKey password p.salt p.cost limited
    have found : keyOf first p password = keyOf second p password := by rw [keyOf, keyOf, derived]
    simp only [decodeWith, parts, Except.bind, found, alike.decrypt]

theorem decode_of_refused {why : String} (parts : split b = .ok p)
    (refused : Secret.deriveKey password p.salt p.cost = .error (.crypto why)) :
    decode b password = .error (.corrupt why) := by
  have found : keyOf .standard p password = .error (.corrupt why) := by
    simp only [keyOf, Suite.standard, refused]
  rw [decode, decodeWith, parts, Except.bind, found]
  rfl

theorem decode_nil (parts : split b = .ok p) :
    decode b [] = .error (.invalidInput "Password cannot be empty") := by
  have found : keyOf .standard p [] = .error (.invalidInput "Password cannot be empty") := by
    simp only [keyOf, Suite.standard, Secret.deriveKey_nil]
  rw [decode, decodeWith, parts, Except.bind, found]
  rfl

theorem unpack_cases (payload : Bytes) :
    (∃ s, unpack payload = .ok s) ∨ ∃ why, unpack payload = .error (.corrupt why) := by
  unfold unpack
  split
  · exact .inl ⟨_, rfl⟩
  · exact .inr ⟨_, rfl⟩

theorem decode_authentication_iff {key : SecretKey} (parts : split b = .ok p)
    (derived : Secret.deriveKey password p.salt p.cost = .ok key) :
    decode b password = .error .authentication ↔ ¬Sealing.Verifies key p.nonce p.preamble p.body := by
  rw [decode_of_key parts derived]
  constructor
  · intro failed verifies
    obtain ⟨payload, seals⟩ := verifies.seals
    rw [Secret.decrypt_eq_ok_iff.mpr seals, Except.bind] at failed
    rcases unpack_cases payload with ⟨s, read⟩ | ⟨why, unread⟩
    · cases read.symm.trans failed
    · cases unread.symm.trans failed
  · intro unfit
    rw [Secret.decrypt_eq_authentication_iff.mpr fun payload seals => unfit seals.verifies]
    rfl

theorem decode_of_verifies {key : SecretKey} (parts : split b = .ok p)
    (derived : Secret.deriveKey password p.salt p.cost = .ok key)
    (verifies : Sealing.Verifies key p.nonce p.preamble p.body) :
    (∃ s, decode b password = .ok s) ∨ ∃ why, decode b password = .error (.corrupt why) := by
  obtain ⟨payload, seals⟩ := verifies.seals
  rw [decode_of_seals parts derived seals]
  exact unpack_cases payload

theorem decode_cases (b password : Bytes) :
    (∃ s, decode b password = .ok s) ∨ decode b password = .error .authentication ∨
      (∃ why, decode b password = .error (.corrupt why)) ∨ ∃ why, decode b password = .error (.invalidInput why) := by
  by_cases framed : Framed b
  · have parts := split_of_framed framed
    by_cases absent : password = []
    · rw [absent]
      exact .inr (.inr (.inr ⟨_, decode_nil parts⟩))
    · rcases Secret.deriveKey_cases absent with ⟨why, refused⟩ | ⟨key, derived⟩
      · exact .inr (.inr (.inl ⟨why, decode_of_refused parts refused⟩))
      · let p := partsIn b framed.long
        by_cases verifies : Sealing.Verifies key p.nonce p.preamble p.body
        · rcases decode_of_verifies parts derived verifies with read | unread
          · exact .inl read
          · exact .inr (.inr (.inl unread))
        · exact .inr (.inl ((decode_authentication_iff parts derived).mpr verifies))
  · obtain ⟨why, refused⟩ := decodeWith_of_unframed framed
    exact .inr (.inr (.inl ⟨why, refused .standard password⟩))

/-- Whatever the bytes are, none beyond their end is read. What is wrong with the frame decides first, for every
password and every suite alike, so no key is derived at a cost beyond the limits. In a sound frame an empty
password decides next, then what the key derivation refuses, a cost that cannot be used or a password that is too
long, then the tag, and last of all the payload. -/
theorem refusals_in_order (b : Bytes) :
    scan b = some (split b) ∧
    (¬Framed b → ∃ why, ∀ suite password, decodeWith suite b password = .error (.corrupt why)) ∧
    (∀ first second : Suite, first.AlikeWithinLimits second →
      ∀ password, decodeWith first b password = decodeWith second b password) ∧
    (Framed b → ∃ p, split b = .ok p ∧
      (∃ why, decode b [] = .error (.invalidInput why)) ∧
      ∀ password, password ≠ [] →
        (∀ flaw, Argon2id.flaw? p.cost = some flaw → ∃ why, decode b password = .error (.corrupt why)) ∧
        (Argon2id.longestPassword < password.length → ∃ why, decode b password = .error (.corrupt why)) ∧
        (Argon2id.flaw? p.cost = none → password.length ≤ Argon2id.longestPassword →
          ∃ key, Secret.deriveKey password p.salt p.cost = .ok key ∧
            (decode b password = .error .authentication ↔ ¬Sealing.Verifies key p.nonce p.preamble p.body) ∧
            (Sealing.Verifies key p.nonce p.preamble p.body →
              (∃ s, decode b password = .ok s) ∨ ∃ why, decode b password = .error (.corrupt why)))) ∧
    ∀ password f, decode b password = .error f →
      f = .authentication ∨ (∃ why, f = .corrupt why) ∨ ∃ why, f = .invalidInput why := by
  refine ⟨scan_eq b, decodeWith_of_unframed, fun first second alike => decodeWith_congr alike b, fun framed => ?_,
    fun password f failed => ?_⟩
  · have parts := split_of_framed framed
    refine ⟨_, parts, ⟨_, decode_nil parts⟩, fun password present =>
      ⟨fun flaw flawed => ?_, fun long => ?_, fun flawless short => ?_⟩⟩
    · exact ⟨_, decode_of_refused parts (Secret.deriveKey_of_flaw present flawed)⟩
    · obtain ⟨why, refused⟩ := Secret.deriveKey_of_long long (partsIn b framed.long).salt (partsIn b framed.long).cost
      exact ⟨why, decode_of_refused parts refused⟩
    · obtain ⟨key, derived⟩ := Secret.exists_deriveKey present flawless short
      exact ⟨key, derived, decode_authentication_iff parts derived, decode_of_verifies parts derived⟩
  · rcases decode_cases b password with ⟨s, read⟩ | failed' | ⟨why, failed'⟩ | ⟨why, failed'⟩
    · cases read.symm.trans failed
    · cases failed'.symm.trans failed
      exact .inl rfl
    · cases failed'.symm.trans failed
      exact .inr (.inl ⟨why, rfl⟩)
    · cases failed'.symm.trans failed
      exact .inr (.inr ⟨why, rfl⟩)

theorem numberAt_take {i n m : Nat} (inside : i + n ≤ m) (b : Bytes) : numberAt (b.take m) i n = numberAt b i n := by
  rw [numberAt, numberAt, List.drop_take, List.take_take, Nat.min_eq_left (by omega)]

theorem Framed.length_eq (first : Framed b) (second : Framed c) (agree : b.take headerLength = c.take headerLength) :
    b.length = c.length := by
  have declared : numberAt b 76 8 = numberAt c 76 8 := by
    rw [← @numberAt_take 76 8 headerLength (by decide) b, agree, numberAt_take (by decide)]
  have bodies : (b.drop headerLength).length = (c.drop headerLength).length := by
    rw [first.whole, second.whole, declared]
  have long := first.long
  have long' := second.long
  simp only [List.length_drop] at bodies
  omega

theorem Framed.of_sealDocument {document : Json} {cost : Cost} {draw : Draw}
    (made : sealDocument .standard document password cost draw = .ok b) : Framed b := by
  obtain ⟨key, body, limited, -, seals, rfl⟩ := exists_of_sealDocument made
  exact framed_of_split (split_assemble limited draw.salt draw.nonce (length_lt_of_verifies seals.verifies))

theorem Framed.not_take {n : Nat} (framed : Framed b) (cut : n < b.length) : ¬Framed (b.take n) := by
  intro part
  have long : headerLength ≤ (b.take n).length := part.long
  rw [List.length_take, Nat.min_eq_left (Nat.le_of_lt cut)] at long
  have agree : (b.take n).take headerLength = b.take headerLength := by
    rw [List.take_take, Nat.min_eq_left long]
  have same := part.length_eq framed agree
  rw [List.length_take] at same
  omega

theorem Framed.not_append {more : Bytes} (framed : Framed b) (grown : more ≠ []) : ¬Framed (b ++ more) := by
  intro whole
  have same := whole.length_eq framed (List.take_append_of_le_length framed.long)
  rw [List.length_append] at same
  exact grown (List.eq_nil_of_length_eq_zero (by omega))

/-- An archive that lost some of its end, or has anything behind it, is damaged, whatever was sealed in it and
whatever password is tried. -/
theorem cut_or_grown_is_corrupt {document : Json} {cost : Cost} {draw : Draw}
    (made : sealDocument .standard document password cost draw = .ok b) :
    (∀ n < b.length, ∃ why, ∀ tried, decode (b.take n) tried = .error (.corrupt why)) ∧
    ∀ more, more ≠ [] → ∃ why, ∀ tried, decode (b ++ more) tried = .error (.corrupt why) := by
  have framed := Framed.of_sealDocument made
  constructor
  · intro n cut
    obtain ⟨why, refused⟩ := decodeWith_of_unframed (framed.not_take cut)
    exact ⟨why, refused .standard⟩
  · intro more grown
    obtain ⟨why, refused⟩ := decodeWith_of_unframed (framed.not_append grown)
    exact ⟨why, refused .standard⟩

theorem cut_or_grown_is_corrupt_entry : ∃ keyring entry b,
    sealDocument .standard (Snapshot.document keyring [entry]) [113] ⟨8, 1, 1⟩ .plain = .ok b ∧
    (∀ n < b.length, ∃ why, ∀ tried, decode (b.take n) tried = .error (.corrupt why)) ∧
    ∀ more, more ≠ [] → ∃ why, ∀ tried, decode (b ++ more) tried = .error (.corrupt why) := by
  obtain ⟨key, derived⟩ : ∃ key, Secret.deriveKey [113] Draw.plain.salt ⟨8, 1, 1⟩ = .ok key := ⟨_, rfl⟩
  have fits := @Vault.length_document_plain (List.replicate 43 0) (List.replicate 17 0) rfl rfl
  have made := sealDocument_eq (by decide) derived fits
  exact ⟨_, _, _, made, cut_or_grown_is_corrupt made⟩

end Archive

end Custody
