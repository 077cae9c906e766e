import Custody.Proofs.Archive

/-!
The format of archives. A row of bytes is taken apart exactly if every field of the header stands in its place
and the body is as long as the header tells; it opens exactly if the body is what the cipher makes of a document
that a snapshot is read from. So an archive that opens has no byte that could be another.
-/

namespace Custody.Archive

def costIn (b : Bytes) : Cost :=
  ⟨(numberAt b 8 4).toUInt32, (numberAt b 12 4).toUInt32, (numberAt b 16 4).toUInt32⟩

/-- What can be told of an archive without its password. -/
structure Framed (b : Bytes) : Prop where
  long : headerLength ≤ b.length
  named : b.take 6 = magic
  known : numberAt b 6 2 = version
  limited : (costIn b).withinLimits = true
  whole : (b.drop headerLength).length = numberAt b 76 8

variable {b : Bytes} {p : Parts}

theorem length_field {i n : Nat} (inside : i + n ≤ b.length) : ((b.drop i).take n).length = n := by
  rw [List.length_take, List.length_drop]
  omega

theorem bigEndian_numberAt {i n : Nat} (inside : i + n ≤ b.length) :
    Bytes.bigEndian n (numberAt b i n) = (b.drop i).take n := by
  have back := Bytes.bigEndian_ofBigEndian ((b.drop i).take n)
  rwa [length_field inside] at back

theorem bigEndian_word {i : Nat} (inside : i + 4 ≤ b.length) :
    Bytes.bigEndian 4 (numberAt b i 4).toUInt32.toNat = (b.drop i).take 4 := by
  have small : numberAt b i 4 < 256 ^ ((b.drop i).take 4).length := Bytes.ofBigEndian_lt _
  rw [length_field inside] at small
  rw [Nat.toUInt32_eq, UInt32.toNat_ofNat_of_lt' small]
  exact bigEndian_numberAt inside

def partsIn (b : Bytes) (long : headerLength ≤ b.length) : Parts where
  cost := costIn b
  salt := ⟨(b.drop 20).take 32, length_field (Nat.le_trans (by decide) long)⟩
  nonce := ⟨(b.drop 52).take 24, length_field (Nat.le_trans (by decide) long)⟩
  preamble := b.take 52
  body := b.drop headerLength

theorem split_of_short (short : b.length < headerLength) :
    split b = .error (.corrupt "dump header is truncated") := by
  unfold split
  simp only [decide_eq_false (Nat.not_le.mpr short)]

theorem split_of_long (long : headerLength ≤ b.length) :
    split b =
      if b.take 6 ≠ magic then .error (.corrupt "not a dump file")
      else if numberAt b 6 2 ≠ version then .error (.corrupt s!"unsupported dump version {numberAt b 6 2}")
      else if !(costIn b).withinLimits then .error (.corrupt "kdf parameters out of range")
      else if (b.drop headerLength).length ≠ numberAt b 76 8 then
        .error (.corrupt
          s!"dump body is {(b.drop headerLength).length} bytes, header declares {numberAt b 76 8}")
      else .ok (partsIn b long) := by
  have salted : slice? b 20 32 = some (partsIn b long).salt := slice?_eq rfl
  have nonced : slice? b 52 24 = some (partsIn b long).nonce := slice?_eq rfl
  unfold split
  simp only [long, decide_true, salted, nonced]
  rfl

theorem split_of_framed (framed : Framed b) : split b = .ok (partsIn b framed.long) := by
  rw [split_of_long framed.long]
  simp only [framed.named, framed.known, framed.limited, framed.whole, ne_eq, not_true_eq_false, Bool.not_true,
    Bool.false_eq_true, if_false]

theorem split_of_unframed (unframed : ¬Framed b) : ∃ why, split b = .error (.corrupt why) := by
  by_cases short : b.length < headerLength
  · exact ⟨_, split_of_short short⟩
  · have long := Nat.not_lt.mp short
    rw [split_of_long long]
    split_ifs with unnamed unknown unlimited partial_
    · exact ⟨_, rfl⟩
    · exact ⟨_, rfl⟩
    · exact ⟨_, rfl⟩
    · exact ⟨_, rfl⟩
    · have limited : (costIn b).withinLimits = true := by simpa using unlimited
      exact absurd ⟨long, not_not.mp unnamed, not_not.mp unknown, limited, not_not.mp partial_⟩ unframed

theorem framed_of_split (parts : split b = .ok p) : Framed b := by
  by_contra unframed
  obtain ⟨why, refused⟩ := split_of_unframed unframed
  cases parts.symm.trans refused

theorem assemble_split (parts : split b = .ok p) :
    b = assemble p.cost p.salt p.nonce p.body ∧ p.preamble = b.take 52 ∧ p.cost.withinLimits = true := by
  have framed := framed_of_split parts
  cases parts.symm.trans (split_of_framed framed)
  obtain ⟨long, named, known, limited, whole⟩ := framed
  have inside : 84 ≤ b.length := long
  have join {i n j : Nat} (next : i + n = j) : (b.drop i).take n ++ b.drop j = b.drop i := by
    rw [← next, ← List.drop_drop, List.take_append_drop]
  -- each number of the header is written back as the bytes it was read from
  have found : Bytes.bigEndian 2 version = (b.drop 6).take 2 := by
    rw [← known]
    exact bigEndian_numberAt (by omega)
  have memory : Bytes.bigEndian 4 (costIn b).memory.toNat = (b.drop 8).take 4 := bigEndian_word (by omega)
  have time : Bytes.bigEndian 4 (costIn b).time.toNat = (b.drop 12).take 4 := bigEndian_word (by omega)
  have lanes : Bytes.bigEndian 4 (costIn b).parallelism.toNat = (b.drop 16).take 4 := bigEndian_word (by omega)
  have declared : Bytes.bigEndian 8 (b.drop headerLength).length = (b.drop 76).take 8 := by
    rw [whole]
    exact bigEndian_numberAt (by omega)
  refine ⟨?_, rfl, limited⟩
  simp only [partsIn, assemble, preamble, declared, found, memory, time, lanes, ← named, List.append_assoc]
  rw [@join 76 8 headerLength rfl, @join 52 24 76 rfl, @join 20 32 52 rfl, @join 16 4 20 rfl, @join 12 4 16 rfl,
    @join 8 4 12 rfl, @join 6 2 8 rfl, List.take_append_drop]

/-- An archive opens exactly if it is written in the format: the header, every field at its width, and a body of
the length told there, which the cipher makes, under the key that the password stands for at the cost and with
the salt told there, of a document that the snapshot is read from. -/
theorem opens_iff_in_format {b password : Bytes} {s : Snapshot} :
    decode b password = .ok s ↔
      ∃ (cost : Cost) (salt : Salt) (nonce : Nonce) (payload body : Bytes) (key : SecretKey),
        cost.withinLimits = true ∧ Secret.deriveKey password salt cost = .ok key ∧
        Snapshot.codec.decode payload = .ok s ∧ Sealing.Seals key nonce (b.take 52) payload body ∧
        b = Bytes.ofText "KLDUMP" ++ [0, 1] ++ Bytes.bigEndian 4 cost.memory.toNat ++
          Bytes.bigEndian 4 cost.time.toNat ++ Bytes.bigEndian 4 cost.parallelism.toNat ++ salt.val ++
          nonce.val ++ Bytes.bigEndian 8 body.length ++ body := by
  constructor
  · intro opened
    obtain ⟨p, parts, opened⟩ := Except.bind_eq_ok.mp opened
    obtain ⟨key, found, opened⟩ := Except.bind_eq_ok.mp opened
    obtain ⟨shape, front, limited⟩ := assemble_split parts
    obtain ⟨payload, decrypted, read⟩ := Except.bind_eq_ok.mp opened
    have derived := keyOf_eq_ok_iff.mp found
    have seals := Secret.decrypt_eq_ok_iff.mp decrypted
    rw [front] at seals
    exact ⟨p.cost, p.salt, p.nonce, payload, p.body, key, limited, derived, unpack_eq_ok_iff.mp read, seals, shape⟩
  · rintro ⟨cost, salt, nonce, payload, body, key, limited, derived, read, seals, shape⟩
    have shape : b = assemble cost salt nonce body := shape
    have front : b.take 52 = preamble cost salt := by
      rw [shape, assemble, List.append_assoc, List.append_assoc, List.take_left' (length_preamble cost salt)]
    have parts := split_assemble limited salt nonce (length_lt_of_verifies seals.verifies)
    rw [← shape] at parts
    rw [front] at seals
    rw [decode_of_seals parts derived seals]
    exact unpack_eq_ok_iff.mpr read

end Custody.Archive
