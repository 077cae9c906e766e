import Custody.Proofs.Bytes
import Custody.Text.Base64

/-!
Base64 is read back as it was written. Each group of three bytes comes back from its four symbols, and a
last group of one or two bytes from its symbols and padding.
-/

namespace Custody.Base64

theorem value?_symbol : ∀ v < 64, value? (symbol v) = some v := by decide

theorem symbol_ne_pad : ∀ v < 64, symbol v ≠ pad := by decide

theorem values_symbols (offset : Nat) {vs : List Nat} (small : ∀ v ∈ vs, v < 64) :
    values offset (vs.map symbol) = .ok vs := by
  induction vs generalizing offset with
  | nil => rfl
  | cons v vs ih =>
    have rest := ih (offset + 1) fun u h => small u (List.mem_cons_of_mem v h)
    simp only [List.map_cons, values, value?_symbol v (small v List.mem_cons_self), rest]
    rfl

theorem takeWhile_symbols {vs : List Nat} (small : ∀ v ∈ vs, v < 64) (n : Nat) :
    (vs.map symbol ++ List.replicate n pad).takeWhile (· != pad) = vs.map symbol := by
  rw [List.takeWhile_append_of_pos]
  · cases n <;> simp [List.replicate_succ]
  · intro c member
    obtain ⟨v, mem, rfl⟩ := List.mem_map.mp member
    exact bne_iff_ne.mpr (symbol_ne_pad v (small v mem))

/-- A last group of symbols and padding is read if together they are four, at least two of them symbols,
and the bits that are not used are zero. -/
theorem closing_symbols (offset : Nat) {vs : List Nat} {n : Nat} (small : ∀ v ∈ vs, v < 64)
    (four : vs.length + n = 4) (two : 2 ≤ vs.length) (zero : number vs % Nat.pow 2 (2 * n) = 0) :
    closing offset (vs.map symbol ++ List.replicate n pad) =
      .ok (Bytes.bigEndian (3 - n) (number vs / Nat.pow 2 (2 * n))) := by
  unfold closing
  simp only [takeWhile_symbols small, values_symbols offset small, List.length_map, List.drop_left',
    List.length_replicate, List.length_append, four, zero]
  rw [if_neg, if_neg (by omega), if_neg (by decide), if_neg (by simp)]
  rintro ⟨-, few | other⟩
  · omega
  · simp at other

theorem bigEndian_three (a b c : UInt8) :
    Bytes.bigEndian 3 ((a.toNat * 256 + b.toNat) * 256 + c.toNat) = [a, b, c] := by
  have number : (a.toNat * 256 + b.toNat) * 256 + c.toNat = Bytes.ofBigEndian [a, b, c] := by
    simp [Bytes.ofBigEndian]
  rw [number]
  exact Bytes.bigEndian_ofBigEndian [a, b, c]

theorem bigEndian_two (a b : UInt8) : Bytes.bigEndian 2 (a.toNat * 256 + b.toNat) = [a, b] := by
  have number : a.toNat * 256 + b.toNat = Bytes.ofBigEndian [a, b] := by simp [Bytes.ofBigEndian]
  rw [number]
  exact Bytes.bigEndian_ofBigEndian [a, b]

theorem bigEndian_one (a : UInt8) : Bytes.bigEndian 1 a.toNat = [a] := by
  have number : a.toNat = Bytes.ofBigEndian [a] := by simp [Bytes.ofBigEndian]
  rw [number]
  exact Bytes.bigEndian_ofBigEndian [a]

theorem length_encode (b : Bytes) : (encode b).length = 4 * ((b.length + 2) / 3) := by
  fun_induction encode b with
  | case1 a b c rest n ih =>
    simp only [List.length_cons, ih]
    omega
  | case2 | case3 => simp
  | case4 => rfl

theorem stray?_encode (b : Bytes) : stray? (encode b) = none := by
  unfold stray?
  split
  · rw [if_neg]
    rintro ⟨one, -⟩
    have fours := length_encode b
    omega
  · rfl

theorem four_sextets {n : Nat} (bound : n < 16777216) :
    (∀ v ∈ [n / 262144, n / 4096 % 64, n / 64 % 64, n % 64], v < 64) ∧
      number [n / 262144, n / 4096 % 64, n / 64 % 64, n % 64] = n := by
  constructor
  · simp only [List.mem_cons, List.not_mem_nil, or_false]
    rintro v (rfl | rfl | rfl | rfl) <;> omega
  · simp only [number, List.foldl_cons, List.foldl_nil]
    omega

theorem three_sextets {n : Nat} (bound : n < 262144) :
    (∀ v ∈ [n / 4096, n / 64 % 64, n % 64], v < 64) ∧ number [n / 4096, n / 64 % 64, n % 64] = n := by
  constructor
  · simp only [List.mem_cons, List.not_mem_nil, or_false]
    rintro v (rfl | rfl | rfl) <;> omega
  · simp only [number, List.foldl_cons, List.foldl_nil]
    omega

theorem two_sextets {n : Nat} (bound : n < 4096) :
    (∀ v ∈ [n / 64, n % 64], v < 64) ∧ number [n / 64, n % 64] = n := by
  constructor
  · simp only [List.mem_cons, List.not_mem_nil, or_false]
    rintro v (rfl | rfl) <;> omega
  · simp only [number, List.foldl_cons, List.foldl_nil]
    omega

theorem groups_encode (b : Bytes) (offset : Nat) : groups offset (encode b) = .ok b := by
  fun_induction encode b generalizing offset with
  | case1 a b c rest n ih =>
    have ha := a.toNat_lt
    have hb := b.toNat_lt
    have hc := c.toNat_lt
    have made : Bytes.bigEndian 3 n = [a, b, c] := bigEndian_three a b c
    have bound : n < 16777216 := by omega
    clear_value n
    obtain ⟨small, whole⟩ := four_sextets bound
    cases next : encode rest with
    | nil =>
      rw [next] at ih
      cases ih 0
      have last := closing_symbols offset small (n := 0) rfl (by simp) (Nat.mod_one _)
      have quotient : n / Nat.pow 2 (2 * 0) = n := Nat.div_one n
      rw [whole, quotient, made] at last
      exact last
    | cons e tail =>
      have read := values_symbols offset small
      simp only [List.map_cons, List.map_nil] at read
      rw [groups, read, ← next, ih (offset + 4)]
      simp only [whole, made]
      rfl
  | case2 a b n =>
    have ha := a.toNat_lt
    have hb := b.toNat_lt
    have made := bigEndian_two a b
    have bound : n < 262144 := by omega
    obtain ⟨small, whole⟩ := three_sextets bound
    have last := closing_symbols offset small (n := 1) rfl (by simp) (by rw [whole]; exact Nat.mul_mod_left ..)
    have quotient : n / Nat.pow 2 (2 * 1) = a.toNat * 256 + b.toNat := Nat.mul_div_cancel _ (by decide)
    rw [whole, quotient] at last
    rw [← made]
    exact last
  | case3 a n =>
    have ha := a.toNat_lt
    have made := bigEndian_one a
    have bound : n < 4096 := by omega
    obtain ⟨small, whole⟩ := two_sextets bound
    have last := closing_symbols offset small (n := 2) rfl (by simp) (by rw [whole]; exact Nat.mul_mod_left ..)
    have quotient : n / Nat.pow 2 (2 * 2) = a.toNat := Nat.mul_div_cancel _ (by decide)
    rw [whole, quotient] at last
    rw [← made]
    exact last
  | case4 => rfl

theorem decode_encode (b : Bytes) : decode (encode b) = .ok b := by
  simp only [decode, stray?_encode, groups_encode]

theorem mem_encode {b : Bytes} {c : UInt8} (member : c ∈ encode b) : c = pad ∨ ∃ v < 64, c = symbol v := by
  fun_induction encode b with
  | case1 x y z rest n ih =>
    have hx := x.toNat_lt
    have hy := y.toNat_lt
    have hz := z.toNat_lt
    have bound : n < 16777216 := by omega
    simp only [List.mem_cons] at member
    rcases member with rfl | rfl | rfl | rfl | member
    · exact .inr ⟨_, by omega, rfl⟩
    · exact .inr ⟨_, by omega, rfl⟩
    · exact .inr ⟨_, by omega, rfl⟩
    · exact .inr ⟨_, by omega, rfl⟩
    · exact ih member
  | case2 x y n =>
    have hx := x.toNat_lt
    have hy := y.toNat_lt
    simp only [List.mem_cons, List.not_mem_nil, or_false] at member
    rcases member with rfl | rfl | rfl | rfl
    · exact .inr ⟨_, by omega, rfl⟩
    · exact .inr ⟨_, by omega, rfl⟩
    · exact .inr ⟨_, by omega, rfl⟩
    · exact .inl rfl
  | case3 x n =>
    have hx := x.toNat_lt
    simp only [List.mem_cons, List.not_mem_nil, or_false] at member
    rcases member with rfl | rfl | rfl | rfl
    · exact .inr ⟨_, by omega, rfl⟩
    · exact .inr ⟨_, by omega, rfl⟩
    · exact .inl rfl
    · exact .inl rfl
  | case4 => cases member

theorem encode_ascii (b : Bytes) : ∀ c ∈ encode b, c < 128 := by
  have symbols : ∀ v < 64, symbol v < 128 := by decide
  intro c member
  rcases mem_encode member with rfl | ⟨v, small, rfl⟩
  · decide
  · exact symbols v small

theorem ofText_text (b : Bytes) : Bytes.ofText (text b) = encode b := Bytes.ofText_ascii (encode_ascii b)

end Custody.Base64
