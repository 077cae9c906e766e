import Custody.Cipher.Sealing

/-!
Encryption can be undone. The keystream is added to the data block by block, so adding it again gives
the data back, a short last block included; a sealed text opens to what was sealed, and nothing else opens.
-/

namespace Custody

namespace Bytes

theorem xor_xor {data stream : Bytes} (h : data.length ≤ stream.length) :
    xor (xor data stream) stream = data := by
  induction data generalizing stream with
  | nil => rfl
  | cons a data ih =>
    cases stream with
    | nil => simp at h
    | cons b stream =>
      have tail : data.length ≤ stream.length := by simpa using h
      simp only [xor, List.zipWith_cons_cons] at ih ⊢
      rw [ih tail, UInt8.xor_assoc, UInt8.xor_self, UInt8.xor_zero]

theorem length_xor {data stream : Bytes} (h : data.length ≤ stream.length) :
    (xor data stream).length = data.length := by
  simp only [xor, List.length_zipWith]
  omega

end Bytes

namespace ChaCha20

theorem length_serialize (ws : List UInt32) : (serialize ws).length = 4 * ws.length := by
  induction ws with
  | nil => rfl
  | cons w ws ih =>
    simp only [serialize, List.flatMap_cons, List.length_append, Bytes.length_littleEndian,
      List.length_cons] at ih ⊢
    omega

theorem length_block (key nonce : Bytes) (counter : Nat) : (block key nonce counter).length = 64 := by
  simp [block, length_serialize]

theorem length_apply (key nonce : Bytes) (counter : Nat) (data : Bytes) :
    (apply key nonce counter data).length = data.length := by
  fun_induction apply key nonce counter data with
  | case1 => rfl
  | case2 counter data more ih =>
    have short : (data.take 64).length ≤ (block key nonce counter).length := by
      rw [length_block, List.length_take]; omega
    rw [List.length_append, ih, Bytes.length_xor short, ← List.length_append, List.take_append_drop]

theorem apply_apply (key nonce : Bytes) (counter : Nat) (data : Bytes) :
    apply key nonce counter (apply key nonce counter data) = data := by
  fun_induction apply key nonce counter data with
  | case1 => rw [apply, if_pos rfl]
  | case2 counter data more ih =>
    have short : (data.take 64).length ≤ (block key nonce counter).length := by
      rw [length_block, List.length_take]; omega
    have first := Bytes.length_xor short
    have rest := length_apply key nonce (counter + 1) (data.drop 64)
    have back := Bytes.xor_xor short
    have fitting : (Bytes.xor (data.take 64) (block key nonce counter)).length ≤ 64 := by
      rw [first, List.length_take]; omega
    -- Only a last block is shorter than 64 bytes, so the cut falls where it fell before.
    have cut : 64 - (Bytes.xor (data.take 64) (block key nonce counter)).length = 0 ∨
        apply key nonce (counter + 1) (data.drop 64) = [] := by
      rw [first, List.length_take, ← List.length_eq_zero_iff, rest, List.length_drop]
      omega
    generalize Bytes.xor (data.take 64) (block key nonce counter) = x at *
    generalize apply key nonce (counter + 1) (data.drop 64) = y at *
    have left : (x ++ y).take 64 = x := by
      rw [List.take_append, List.take_of_length_le fitting]
      rcases cut with h | h <;> simp [h]
    have right : (x ++ y).drop 64 = y := by
      rw [List.drop_append, List.drop_of_length_le fitting]
      rcases cut with h | h <;> simp [h]
    have nonempty : x ++ y ≠ [] := by
      intro none
      have size := congrArg List.length none
      rw [List.length_append, first, rest, ← List.length_append, List.take_append_drop] at size
      exact more (List.length_eq_zero_iff.mp size)
    rw [apply, if_neg nonempty, left, right, back, ih, List.take_append_drop]

end ChaCha20

namespace Sealing

theorem length_tag (key : SecretKey) (nonce : Nonce) (aad cipher : Bytes) :
    (tag key nonce aad cipher).length = tagLength := by
  simp [tag, Poly1305.tag, tagLength]

theorem length_crypt (key : SecretKey) (nonce : Nonce) (data : Bytes) :
    (crypt key nonce data).length = data.length := ChaCha20.length_apply ..

theorem crypt_crypt (key : SecretKey) (nonce : Nonce) (data : Bytes) :
    crypt key nonce (crypt key nonce data) = data := ChaCha20.apply_apply ..

theorem length_sealText (key : SecretKey) (nonce : Nonce) (aad plain : Bytes) :
    (sealText key nonce aad plain).length = plain.length + tagLength := by
  simp only [sealText, List.length_append, length_crypt, length_tag]

theorem open?_sealText (key : SecretKey) (nonce : Nonce) (aad plain : Bytes) :
    open? key nonce aad (sealText key nonce aad plain) = some plain := by
  have long := length_sealText key nonce aad plain
  have body : (sealText key nonce aad plain).length - tagLength = (crypt key nonce plain).length := by
    rw [length_crypt]; omega
  unfold open?
  rw [if_neg (by omega), body]
  simp only [sealText, List.take_left, List.drop_left, if_true, crypt_crypt]

/-- The cipher makes this sealed text of a plaintext. Of a plaintext beyond its capacity it makes none. -/
structure Seals (key : SecretKey) (nonce : Nonce) (aad plain sealedText : Bytes) : Prop where
  fits : plain.length < capacity
  made : sealedText = sealText key nonce aad plain

/-- The tag at the end is the right one. A text too short for a tag, or longer than any sealed text, has none. -/
structure Verifies (key : SecretKey) (nonce : Nonce) (aad sealedText : Bytes) : Prop where
  long : tagLength ≤ sealedText.length
  bounded : sealedText.length < capacity + tagLength
  tagged : sealedText.drop (sealedText.length - tagLength) =
    tag key nonce aad (sealedText.take (sealedText.length - tagLength))

variable {key : SecretKey} {nonce : Nonce} {aad plain sealedText : Bytes}

theorem open?_eq_some_iff :
    open? key nonce aad sealedText = some plain ↔ sealedText = sealText key nonce aad plain := by
  constructor
  · intro opened
    unfold open? at opened
    split at opened
    · cases opened
    · simp only at opened
      split at opened
      · rename_i fits
        cases opened
        rw [sealText, crypt_crypt, ← fits, List.take_append_drop]
      · cases opened
  · rintro rfl
    exact open?_sealText key nonce aad plain

theorem ne_sealText_of_short (short : sealedText.length < tagLength) (key : SecretKey) (nonce : Nonce)
    (aad plain : Bytes) : sealedText ≠ sealText key nonce aad plain := by
  rintro rfl
  rw [length_sealText] at short
  omega

theorem Seals.verifies (seals : Seals key nonce aad plain sealedText) : Verifies key nonce aad sealedText := by
  obtain ⟨fits, rfl⟩ := seals
  have length := length_sealText key nonce aad plain
  have body : (sealText key nonce aad plain).length - tagLength = (crypt key nonce plain).length := by
    rw [length_crypt]
    omega
  refine ⟨by omega, by omega, ?_⟩
  rw [body, sealText, List.drop_left, List.take_left]

theorem Verifies.seals (verifies : Verifies key nonce aad sealedText) :
    ∃ plain, Seals key nonce aad plain sealedText := by
  obtain ⟨long, bounded, tagged⟩ := verifies
  refine ⟨crypt key nonce (sealedText.take (sealedText.length - tagLength)), ?_, ?_⟩
  · rw [length_crypt, List.length_take]
    omega
  · rw [sealText, crypt_crypt, ← tagged, List.take_append_drop]

end Sealing

end Custody
