import Custody.Archive
import Custody.Proofs.Bytes
import Custody.Proofs.Except
import Custody.Proofs.Secret
import Custody.Proofs.Snapshot

/-!
An archive opens with the password it was made with, and gives the snapshot back. Every field of the header
is found where it was put, so the key is derived from the same salt at the same cost, and the body is opened
with the associated data it was sealed with.
-/

namespace Custody.Archive

theorem length_preamble (cost : Cost) (salt : Salt) : (preamble cost salt).length = 52 := by
  have magic : magic.length = 6 := rfl
  simp [preamble, magic, salt.property]

theorem take_drop {b part back : Bytes} {i n j : Nat} (shape : b.drop i = part ++ back)
    (size : part.length = n) (next : i + n = j) : (b.drop i).take n = part ∧ b.drop j = back := by
  constructor
  · rw [shape, ← size, List.take_left]
  · rw [← next, ← List.drop_drop, shape, ← size, List.drop_left]

theorem slice?_eq {b : Bytes} {i n : Nat} {s : Bytes.Sized n} (found : (b.drop i).take n = s.val) :
    slice? b i n = some s := by
  have length : ((b.drop i).take n).length = n := by rw [found, s.property]
  simp only [slice?]
  rw [dif_pos length]
  exact congrArg some (Subtype.ext found)

theorem numberAt_eq {b : Bytes} {i w n : Nat} (found : (b.drop i).take w = Bytes.bigEndian w n)
    (small : n < 256 ^ w) : numberAt b i w = n := by
  rw [numberAt, found, Bytes.ofBigEndian_bigEndian small]

theorem split_assemble {cost : Cost} (limited : cost.withinLimits = true) (salt : Salt) (nonce : Nonce)
    {body : Bytes} (small : body.length < 256 ^ 8) :
    split (assemble cost salt nonce body) = .ok ⟨cost, salt, nonce, preamble cost salt, body⟩ := by
  have before : (assemble cost salt nonce body).take 52 = preamble cost salt := by
    rw [assemble, List.append_assoc, List.append_assoc, List.take_left' (length_preamble cost salt)]
  have long : headerLength ≤ (assemble cost salt nonce body).length := by
    simp only [assemble, List.length_append, length_preamble, nonce.property, Bytes.length_bigEndian,
      headerLength]
    omega
  have start : (assemble cost salt nonce body).drop 0 = magic ++ (Bytes.bigEndian 2 version ++
      (Bytes.bigEndian 4 cost.memory.toNat ++ (Bytes.bigEndian 4 cost.time.toNat ++
        (Bytes.bigEndian 4 cost.parallelism.toNat ++ (salt.val ++ (nonce.val ++
          (Bytes.bigEndian 8 body.length ++ body))))))) := by
    simp only [assemble, preamble, List.append_assoc, List.drop_zero]
  generalize assemble cost salt nonce body = b at *
  obtain ⟨first, at6⟩ := @take_drop b _ _ 0 6 6 start rfl rfl
  obtain ⟨second, at8⟩ := @take_drop b _ _ 6 2 8 at6 (Bytes.length_bigEndian ..) rfl
  obtain ⟨memory, at12⟩ := @take_drop b _ _ 8 4 12 at8 (Bytes.length_bigEndian ..) rfl
  obtain ⟨time, at16⟩ := @take_drop b _ _ 12 4 16 at12 (Bytes.length_bigEndian ..) rfl
  obtain ⟨lanes, at20⟩ := @take_drop b _ _ 16 4 20 at16 (Bytes.length_bigEndian ..) rfl
  obtain ⟨salted, at52⟩ := @take_drop b _ _ 20 32 52 at20 salt.property rfl
  obtain ⟨nonced, at76⟩ := @take_drop b _ _ 52 24 76 at52 nonce.property rfl
  obtain ⟨length, rest⟩ := @take_drop b _ _ 76 8 headerLength at76 (Bytes.length_bigEndian ..) rfl
  have memory_ := numberAt_eq memory cost.memory.toNat_lt
  have time_ := numberAt_eq time cost.time.toNat_lt
  have lanes_ := numberAt_eq lanes cost.parallelism.toNat_lt
  have version_ := numberAt_eq second (by decide)
  have length_ := numberAt_eq length small
  have back (n : UInt32) : n.toNat.toUInt32 = n := UInt32.ofNat_toNat
  rw [List.drop_zero] at first
  unfold split
  simp only [slice?_eq salted, slice?_eq nonced, memory_, time_, lanes_, version_, length_, first, before,
    rest, long, back, decide_true]
  rw [if_neg (by simp), if_neg (by simp), if_neg (by simp [limited]), if_neg (by simp)]

theorem length_lt_of_verifies {key : SecretKey} {nonce : Nonce} {aad body : Bytes}
    (verifies : Sealing.Verifies key nonce aad body) : body.length < 256 ^ 8 := by
  have bounded := verifies.bounded
  simp only [Sealing.capacity, Sealing.tagLength] at bounded
  omega

theorem keyOf_eq_ok_iff {password : Bytes} {p : Parts} {key : SecretKey} :
    keyOf .standard p password = .ok key ↔ Secret.deriveKey password p.salt p.cost = .ok key := by
  unfold keyOf
  split
  · rename_i why refused
    have refused : Secret.deriveKey password p.salt p.cost = .error (.crypto why) := refused
    simp only [refused, reduceCtorEq]
  · exact Iff.rfl

/-- With the key of an archive at hand, the cipher and its payload decide. -/
theorem decode_of_key {b password : Bytes} {p : Parts} {key : SecretKey} (parts : split b = .ok p)
    (derived : Secret.deriveKey password p.salt p.cost = .ok key) :
    decode b password = (Secret.decrypt key.val p.nonce p.preamble p.body).bind unpack := by
  have found := keyOf_eq_ok_iff.mpr derived
  rw [decode, decodeWith, parts, Except.bind, found]
  rfl

theorem unpack_eq_ok_iff {payload : Bytes} {s : Snapshot} :
    unpack payload = .ok s ↔ Snapshot.codec.decode payload = .ok s := by
  unfold unpack
  cases Snapshot.codec.decode payload with
  | ok t => simp only [Except.ok.injEq]
  | error fault => simp only [reduceCtorEq]

theorem decode_of_seals {b password payload : Bytes} {p : Parts} {key : SecretKey} (parts : split b = .ok p)
    (derived : Secret.deriveKey password p.salt p.cost = .ok key)
    (seals : Sealing.Seals key p.nonce p.preamble payload p.body) : decode b password = unpack payload := by
  rw [decode_of_key parts derived, Secret.decrypt_eq_ok_iff.mpr seals]
  rfl

theorem sealDocument_eq {document : Json} {password : Bytes} {cost : Cost} {draw : Draw} {key : SecretKey}
    (limited : cost.withinLimits = true) (derived : Secret.deriveKey password draw.salt cost = .ok key)
    (fits : document.render.length < Sealing.capacity) :
    sealDocument .standard document password cost draw = .ok (assemble cost draw.salt draw.nonce
      (Sealing.sealText key draw.nonce (preamble cost draw.salt) document.render)) := by
  have derived : Suite.standard.deriveKey password draw.salt cost = .ok key := derived
  have made := Secret.encrypt_eq_ok_iff.mpr (⟨fits, rfl⟩ : Sealing.Seals key draw.nonce (preamble cost draw.salt) _ _)
  rw [sealDocument, if_neg (by simp [limited]), derived]
  exact Except.map_eq_ok.mpr ⟨_, made, rfl⟩

theorem exists_of_sealDocument {document : Json} {password : Bytes} {cost : Cost} {draw : Draw} {b : Bytes}
    (made : sealDocument .standard document password cost draw = .ok b) :
    ∃ key body, cost.withinLimits = true ∧ Secret.deriveKey password draw.salt cost = .ok key ∧
      Sealing.Seals key draw.nonce (preamble cost draw.salt) document.render body ∧
      b = assemble cost draw.salt draw.nonce body := by
  unfold sealDocument at made
  split at made
  · cases made
  · rename_i limited
    obtain ⟨key, derived, assembled⟩ := Except.bind_eq_ok.mp made
    obtain ⟨body, encrypted, rfl⟩ := Except.map_eq_ok.mp assembled
    exact ⟨key, body, by simpa using limited, derived, Secret.encrypt_eq_ok_iff.mp encrypted, rfl⟩

theorem decode_sealDocument {s : Snapshot} (sound : s.Sound) {order : List Entry}
    (perm : order.Perm s.store.toList) {password : Bytes} {cost : Cost} {draw : Draw} {b : Bytes}
    (made : sealDocument .standard (Snapshot.document s.keyring order) password cost draw = .ok b) :
    decode b password = .ok s := by
  obtain ⟨key, body, limited, derived, seals, rfl⟩ := exists_of_sealDocument made
  have parts := split_assemble limited draw.salt draw.nonce (length_lt_of_verifies seals.verifies)
  rw [decode_of_seals parts derived seals, unpack_eq_ok_iff]
  exact Snapshot.decode_document sound perm

/-- Every snapshot that an archive gives is sound, whoever made the archive. -/
theorem sound_of_decode {b password : Bytes} {s : Snapshot} (read : decode b password = .ok s) : s.Sound := by
  obtain ⟨p, -, read⟩ := Except.bind_eq_ok.mp read
  obtain ⟨key, -, read⟩ := Except.bind_eq_ok.mp read
  obtain ⟨payload, -, read⟩ := Except.bind_eq_ok.mp read
  exact Snapshot.sound_of_decode (unpack_eq_ok_iff.mp read)

end Custody.Archive
