import Custody.Bytes
import Mathlib.Algebra.GroupWithZero.Nat
import Mathlib.Data.List.Induction

/-!
Texts and numbers come back from the bytes they are written in.
-/

namespace Custody.Bytes

theorem ofBigEndian_concat (b : Bytes) (x : UInt8) :
    ofBigEndian (b ++ [x]) = ofBigEndian b * 256 + x.toNat := by
  simp [ofBigEndian, List.foldl_append]

theorem bigEndian_ofBigEndian (b : Bytes) : bigEndian b.length (ofBigEndian b) = b := by
  induction b using List.reverseRecOn with
  | nil => rfl
  | append_singleton b x ih =>
    have small := x.toNat_lt
    have front : (ofBigEndian b * 256 + x.toNat) / 256 = ofBigEndian b := by omega
    have last : (ofBigEndian b * 256 + x.toNat).toUInt8 = x := by
      apply UInt8.toNat_inj.mp
      rw [Nat.toUInt8_eq, UInt8.toNat_ofNat']
      omega
    rw [List.length_append, List.length_singleton, bigEndian, ofBigEndian_concat, front, last, ih]

theorem ofBigEndian_bigEndian {w n : Nat} (h : n < 256 ^ w) : ofBigEndian (bigEndian w n) = n := by
  induction w generalizing n with
  | zero =>
    rw [Nat.pow_zero] at h
    have none : n = 0 := by omega
    rw [none]
    rfl
  | succ w ih =>
    have front := ih (n := n / 256) (by rw [Nat.pow_succ] at h; omega)
    rw [bigEndian, ofBigEndian_concat, front, Nat.toUInt8_eq, UInt8.toNat_ofNat']
    omega

theorem ofBigEndian_lt (b : Bytes) : ofBigEndian b < 256 ^ b.length := by
  induction b using List.reverseRecOn with
  | nil => decide
  | append_singleton b x ih =>
    have small := x.toNat_lt
    rw [ofBigEndian_concat, List.length_append, List.length_singleton, Nat.pow_succ]
    omega

theorem ofText_eq_flatMap (s : String) : ofText s = s.toList.flatMap String.utf8EncodeChar := by
  have encoded : s.toByteArray = (s.toList.flatMap String.utf8EncodeChar).toByteArray :=
    String.utf8Encode_toList.symm
  simp only [ofText, String.toUTF8, encoded, List.data_toByteArray]

theorem length_le_ofText (s : String) : s.length ≤ (ofText s).length := by
  rw [ofText_eq_flatMap, ← String.length_toList]
  induction s.toList with
  | nil => exact Nat.zero_le _
  | cons c cs ih =>
    have some : 0 < (String.utf8EncodeChar c).length := by
      rw [String.length_utf8EncodeChar]
      exact Char.utf8Size_pos c
    rw [List.flatMap_cons, List.length_append, List.length_cons]
    omega

theorem text?_ofText (s : String) : text? (ofText s) = some s := by
  have bytes : (⟨(ofText s).toArray⟩ : ByteArray) = s.toByteArray := by
    simp [ofText, String.toUTF8]
  simp only [text?, bytes, String.fromUTF8?]
  rw [dif_pos s.isValidUTF8]
  rfl

theorem ofText_inj {s t : String} (h : ofText s = ofText t) : s = t := by
  have texts := congrArg text? h
  rw [text?_ofText, text?_ofText] at texts
  exact Option.some.inj texts

theorem toNat_ofNat {n : Nat} (valid : n.isValidChar) : (Char.ofNat n).toNat = n := by
  unfold Char.ofNat
  rw [dif_pos valid]
  rfl

theorem ofText_ascii {b : Bytes} (h : ∀ c ∈ b, c < 128) : ofText (ascii b) = b := by
  rw [ofText_eq_flatMap, ascii, String.toList_ofList]
  induction b with
  | nil => rfl
  | cons c b ih =>
    have small : c.toNat < 128 := UInt8.lt_iff_toNat_lt.mp (h c List.mem_cons_self)
    have one : String.utf8EncodeChar (Char.ofNat c.toNat) = [c] := by
      have code : (Char.ofNat c.toNat).val.toNat = c.toNat :=
        toNat_ofNat (.inl (by omega))
      simp only [String.utf8EncodeChar, code]
      rw [if_pos (by omega), UInt8.ofNat_toNat]
    rw [List.map_cons, List.flatMap_cons, one, ih fun d member => h d (List.mem_cons_of_mem c member)]
    rfl

def chars (b : Bytes) : List Char := b.map fun c => Char.ofNat c.toNat

theorem toList_ascii (b : Bytes) : (ascii b).toList = chars b := String.toList_ofList

theorem chars_nil : chars [] = [] := rfl

theorem chars_cons (c : UInt8) (b : Bytes) : chars (c :: b) = Char.ofNat c.toNat :: chars b := rfl

theorem chars_append (b d : Bytes) : chars (b ++ d) = chars b ++ chars d := List.map_append

end Custody.Bytes
