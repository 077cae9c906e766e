import Custody.Key.Id
import Custody.Proofs.Bytes
import Mathlib.Order.Defs.Unbundled
import Mathlib.Tactic.SplitIfs

/-!
Names of keys in the order of their bytes. A character that comes later has a greater UTF-8 form, at the
first byte in which the two differ, so texts and their UTF-8 forms are in the same order.
-/

namespace Custody

namespace Bytes

theorem utf8EncodeChar_lt {c d : Char} (h : c < d) (u v : Bytes) :
    String.utf8EncodeChar c ++ u < String.utf8EncodeChar d ++ v := by
  have less : c.val.toNat < d.val.toNat := h
  have bound : d.val.toNat < 0x110000 := by
    have valid := d.valid
    simp only [UInt32.isValidChar, Nat.isValidChar] at valid
    omega
  unfold String.utf8EncodeChar
  simp only
  generalize c.val.toNat = m at less
  generalize d.val.toNat = n at less bound
  have m₁ : m / 64 / 64 = m / 4096 := Nat.div_div_eq_div_mul ..
  have m₂ : m / 4096 / 64 = m / 262144 := Nat.div_div_eq_div_mul ..
  have n₁ : n / 64 / 64 = n / 4096 := Nat.div_div_eq_div_mul ..
  have n₂ : n / 4096 / 64 = n / 262144 := Nat.div_div_eq_div_mul ..
  -- A form of fewer bytes is less by its first byte; forms of one length are compared digit by digit.
  split_ifs <;>
    simp only [List.cons_append, List.nil_append, List.cons_lt_cons_iff, UInt8.lt_iff_toNat_lt,
      ← UInt8.toNat_inj, UInt8.toNat_ofNat'] <;>
    simp (disch := omega) only [Nat.mod_eq_of_lt] <;>
    omega

theorem flatMap_utf8EncodeChar_lt {l r : List Char} (h : l < r) :
    l.flatMap String.utf8EncodeChar < r.flatMap String.utf8EncodeChar := by
  induction h with
  | @nil c r =>
    have some := String.utf8EncodeChar_ne_nil (c := c)
    simp only [List.flatMap_nil, List.flatMap_cons]
    cases form : String.utf8EncodeChar c with
    | nil => exact absurd form some
    | cons b bs => exact List.nil_lt_cons ..
  | rel less => exact utf8EncodeChar_lt less _ _
  | cons _ ih =>
    simp only [List.flatMap_cons]
    exact List.append_left_lt ih

theorem ofText_lt_ofText {s t : String} : ofText s < ofText t ↔ s < t := by
  have forward {s t : String} (h : s < t) : ofText s < ofText t := by
    rw [ofText_eq_flatMap, ofText_eq_flatMap]
    exact flatMap_utf8EncodeChar_lt h
  constructor
  · intro less
    apply Classical.byContradiction
    intro not
    by_cases back : t < s
    · exact List.lt_asymm less (forward back)
    · have same : s = t := String.le_antisymm back not
      exact List.lt_irrefl _ (same ▸ less)
  · exact forward

end Bytes

namespace KeyId

theorem ext_text {a b : KeyId} (h : a.text = b.text) : a = b := by
  cases a
  cases b
  cases h
  rfl

/-- Names are ordered by their bytes. -/
instance : LE KeyId := ⟨fun a b => a.bytes ≤ b.bytes⟩

instance (a b : KeyId) : Decidable (a ≤ b) := inferInstanceAs (Decidable (a.bytes ≤ b.bytes))

theorem bytes_lt_bytes {a b : KeyId} : a.bytes < b.bytes ↔ a.text < b.text := Bytes.ofText_lt_ofText

theorem le_of_text_lt {a b : KeyId} (h : a.text < b.text) : a ≤ b :=
  List.le_of_lt (bytes_lt_bytes.mpr h)

instance : IsTrans KeyId (· ≤ ·) := ⟨fun _ _ _ => List.le_trans⟩

instance : Std.Total (α := KeyId) (· ≤ ·) := ⟨fun a b => List.le_total a.bytes b.bytes⟩

instance : Std.Antisymm (α := KeyId) (· ≤ ·) :=
  ⟨fun _ _ ab ba => ext_text (Bytes.ofText_inj (List.le_antisymm ab ba))⟩

def plain : KeyId := ⟨"a", by decide, by decide, by decide⟩

def other : KeyId := ⟨"b", by decide, by decide, by decide⟩

end KeyId

end Custody
