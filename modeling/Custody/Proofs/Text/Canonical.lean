import Custody.Proofs.Json.Codec

/-!
Every byte string has exactly one base64 text. A text is read only if it is made of groups of four symbols, the last
of them with one or two pads at its end and zeros in the bits that these leave unused; and it is then the text that
is written for the bytes that are read from it.
-/

namespace Custody

namespace Base64

/-- The texts that the format allows: groups of four symbols; at the end there may be one with pads, whose last symbol
has zeros in the bits that are not used. -/
inductive Canonical : Bytes → Prop where
  | empty : Canonical []
  | onePad {u v w : Nat} (small : ∀ x ∈ [u, v, w], x < 64) (zeros : w % 4 = 0) :
      Canonical [symbol u, symbol v, symbol w, pad]
  | twoPads {u v : Nat} (small : ∀ x ∈ [u, v], x < 64) (zeros : v % 16 = 0) :
      Canonical [symbol u, symbol v, pad, pad]
  | group {u v w x : Nat} {rest : Bytes} (small : ∀ y ∈ [u, v, w, x], y < 64) (canonical : Canonical rest) :
      Canonical (symbol u :: symbol v :: symbol w :: symbol x :: rest)

theorem value?_eq_some {c : UInt8} {v : Nat} (known : value? c = some v) : v < 64 ∧ c = symbol v := by
  have all : ∀ n : Fin 256, ∀ v ∈ value? (UInt8.ofFin n), v < 64 ∧ UInt8.ofFin n = symbol v := by decide +kernel
  exact all c.toFin v known

theorem values_eq_ok {offset : Nat} {l : Bytes} {vs : List Nat} (known : values offset l = .ok vs) :
    l = vs.map symbol ∧ ∀ v ∈ vs, v < 64 := by
  induction l generalizing offset vs with
  | nil =>
    cases known
    exact ⟨rfl, nofun⟩
  | cons c l ih =>
    rw [values] at known
    split at known
    · cases known
    · rename_i v one
      obtain ⟨rest, others, rfl⟩ := Except.map_eq_ok.mp known
      obtain ⟨small, rfl⟩ := value?_eq_some one
      obtain ⟨rfl, bound⟩ := ih others
      exact ⟨rfl, List.forall_mem_cons.mpr ⟨small, bound⟩⟩

/-- A last group that is read consists of symbols and pads, four together and at least two of them symbols, and the
bits that are not used are zero. -/
theorem closing_eq_ok {offset : Nat} {group b : Bytes} (read : closing offset group = .ok b) :
    ∃ (vs : List Nat) (n : Nat), group = vs.map symbol ++ List.replicate n pad ∧ (∀ v ∈ vs, v < 64) ∧
      vs.length + n = 4 ∧ 2 ≤ vs.length ∧ number vs % Nat.pow 2 (2 * n) = 0 ∧
      b = Bytes.bigEndian (3 - n) (number vs / Nat.pow 2 (2 * n)) := by
  unfold closing at read
  simp only at read
  have whole : group = group.takeWhile (· != pad) ++ group.drop (group.takeWhile (· != pad)).length :=
    ((List.prefix_iff_eq_append).mp (List.takeWhile_prefix _)).symm
  generalize group.takeWhile (· != pad) = body at read whole
  generalize group.drop body.length = pads at read whole
  subst whole
  split at read
  · cases read
  · rename_i vs known
    obtain ⟨rfl, small⟩ := values_eq_ok known
    rw [List.length_map, List.length_append, List.length_map] at read
    split_ifs at read with odd few short unused
    cases read
    have padding : pads = List.replicate pads.length pad := by
      refine List.eq_replicate_iff.mpr ⟨rfl, fun c member => ?_⟩
      by_contra other
      refine odd ⟨List.ne_nil_of_mem member, .inr ?_⟩
      exact List.any_eq_true.mpr ⟨c, member, bne_iff_ne.mpr other⟩
    refine ⟨vs, pads.length, ?_, small, by omega, by omega, by omega, rfl⟩
    rw [← padding]

section Encode

variable {b : Bytes} {u v w x : Nat}

theorem encode_three (three : b.length = 3) (rest : Bytes) :
    encode (b ++ rest) =
      symbol (Bytes.ofBigEndian b / 262144) :: symbol (Bytes.ofBigEndian b / 4096 % 64) ::
        symbol (Bytes.ofBigEndian b / 64 % 64) :: symbol (Bytes.ofBigEndian b % 64) :: encode rest := by
  obtain ⟨x, y, z, rfl⟩ := List.length_eq_three.mp three
  simp [encode, Bytes.ofBigEndian]

theorem encode_two (two : b.length = 2) :
    encode b = [symbol (Bytes.ofBigEndian b * 4 / 4096), symbol (Bytes.ofBigEndian b * 4 / 64 % 64),
      symbol (Bytes.ofBigEndian b * 4 % 64), pad] := by
  obtain ⟨x, y, rfl⟩ := List.length_eq_two.mp two
  simp [encode, Bytes.ofBigEndian]

theorem encode_one (one : b.length = 1) :
    encode b = [symbol (Bytes.ofBigEndian b * 16 / 64), symbol (Bytes.ofBigEndian b * 16 % 64), pad, pad] := by
  obtain ⟨x, rfl⟩ := List.length_eq_one_iff.mp one
  simp [encode, Bytes.ofBigEndian]

theorem encode_group (small : ∀ y ∈ [u, v, w, x], y < 64) (rest : Bytes) :
    encode (Bytes.bigEndian 3 (number [u, v, w, x]) ++ rest) =
      symbol u :: symbol v :: symbol w :: symbol x :: encode rest := by
  simp only [List.forall_mem_cons, List.not_mem_nil, false_imp_iff, implies_true, and_true] at small
  simp only [number, List.foldl_cons, List.foldl_nil]
  rw [encode_three (Bytes.length_bigEndian ..), Bytes.ofBigEndian_bigEndian (by omega)]
  generalize same : (((0 * 64 + u) * 64 + v) * 64 + w) * 64 + x = n
  have first : n / 262144 = u := by omega
  have second : n / 4096 % 64 = v := by omega
  have third : n / 64 % 64 = w := by omega
  have fourth : n % 64 = x := by omega
  rw [first, second, third, fourth]

theorem encode_onePad (small : ∀ y ∈ [u, v, w], y < 64) (zeros : w % 4 = 0) :
    encode (Bytes.bigEndian 2 (number [u, v, w] / 4)) = [symbol u, symbol v, symbol w, pad] := by
  simp only [List.forall_mem_cons, List.not_mem_nil, false_imp_iff, implies_true, and_true] at small
  simp only [number, List.foldl_cons, List.foldl_nil]
  rw [encode_two (Bytes.length_bigEndian ..), Bytes.ofBigEndian_bigEndian (by omega)]
  generalize same : ((0 * 64 + u) * 64 + v) * 64 + w = n
  have first : n / 4 * 4 / 4096 = u := by omega
  have second : n / 4 * 4 / 64 % 64 = v := by omega
  have third : n / 4 * 4 % 64 = w := by omega
  rw [first, second, third]

theorem encode_twoPads (small : ∀ y ∈ [u, v], y < 64) (zeros : v % 16 = 0) :
    encode (Bytes.bigEndian 1 (number [u, v] / 16)) = [symbol u, symbol v, pad, pad] := by
  simp only [List.forall_mem_cons, List.not_mem_nil, false_imp_iff, implies_true, and_true] at small
  simp only [number, List.foldl_cons, List.foldl_nil]
  rw [encode_one (Bytes.length_bigEndian ..), Bytes.ofBigEndian_bigEndian (by omega)]
  generalize same : (0 * 64 + u) * 64 + v = n
  have first : n / 16 * 16 / 64 = u := by omega
  have second : n / 16 * 16 % 64 = v := by omega
  rw [first, second]

end Encode

theorem encode_of_closing {offset : Nat} {group b : Bytes} (read : closing offset group = .ok b) :
    encode b = group ∧ Canonical group := by
  obtain ⟨vs, n, rfl, small, four, two, zeros, rfl⟩ := closing_eq_ok read
  have pads : n = 0 ∨ n = 1 ∨ n = 2 := by omega
  rcases pads with rfl | rfl | rfl
  · obtain ⟨u, v, w, x, rfl⟩ := List.length_eq_four.mp four
    have quotient : number [u, v, w, x] / Nat.pow 2 (2 * 0) = number [u, v, w, x] := Nat.div_one _
    have written := encode_group small []
    rw [List.append_nil, ← quotient] at written
    exact ⟨written, .group small .empty⟩
  · obtain ⟨u, v, w, rfl⟩ := List.length_eq_three.mp (Nat.succ.inj four)
    have last : w % 4 = 0 := by
      simp only [number, List.foldl_cons, List.foldl_nil, show Nat.pow 2 (2 * 1) = 4 from rfl] at zeros
      omega
    exact ⟨encode_onePad small last, .onePad small last⟩
  · obtain ⟨u, v, rfl⟩ := List.length_eq_two.mp (Nat.succ.inj (Nat.succ.inj four))
    have last : v % 16 = 0 := by
      simp only [number, List.foldl_cons, List.foldl_nil, show Nat.pow 2 (2 * 2) = 16 from rfl] at zeros
      omega
    exact ⟨encode_twoPads small last, .twoPads small last⟩

theorem encode_of_groups {offset : Nat} {t b : Bytes} (read : groups offset t = .ok b) :
    encode b = t ∧ Canonical t := by
  fun_induction groups offset t generalizing b with
  | case1 offset a b c d e rest flaw known => cases read
  | case2 offset c₁ c₂ c₃ c₄ e rest vs known ih =>
    obtain ⟨tail, others, rfl⟩ := Except.map_eq_ok.mp read
    obtain ⟨written, canonical⟩ := ih others
    obtain ⟨shape, small⟩ := values_eq_ok known
    obtain ⟨u, v, w, x, rfl⟩ := List.length_eq_four.mp (by simpa using (congrArg List.length shape).symm)
    cases shape
    exact ⟨(encode_group small tail).trans (by rw [written]), .group small canonical⟩
  | case3 =>
    cases read
    exact ⟨rfl, .empty⟩
  | case4 => exact encode_of_closing read

theorem canonical_encode (b : Bytes) : Canonical (encode b) := (encode_of_groups (groups_encode b 0)).2

theorem Canonical.exists_encode {t : Bytes} (canonical : Canonical t) : ∃ b, t = encode b := by
  induction canonical with
  | empty => exact ⟨[], rfl⟩
  | onePad small zeros => exact ⟨_, (encode_onePad small zeros).symm⟩
  | twoPads small zeros => exact ⟨_, (encode_twoPads small zeros).symm⟩
  | group small _ ih =>
    obtain ⟨b, rfl⟩ := ih
    exact ⟨_, (encode_group small b).symm⟩

theorem decode_eq_ok_iff {t b : Bytes} : decode t = .ok b ↔ t = encode b := by
  constructor
  · intro read
    unfold decode at read
    split at read
    · cases read
    · exact (encode_of_groups read).1.symm
  · rintro rfl
    exact decode_encode b

theorem ofText_eq_encode_iff {s : String} {b : Bytes} : Bytes.ofText s = encode b ↔ s = text b := by
  rw [← ofText_text]
  exact ⟨Bytes.ofText_inj, congrArg Bytes.ofText⟩

end Base64

namespace Json.Codec

theorem base64_read_iff {src : Source} {j : Json} {b : Bytes} : base64.read src j = .ok b ↔ j = base64.write b := by
  constructor
  · intro read
    obtain ⟨s, found, decoded⟩ := Except.bind_eq_ok.mp read
    have text : j = .text s := by
      cases j with
      | string s => cases s <;> cases found; rfl
      | null | bool | number | array | object => cases found
    split at decoded
    · rename_i decodes
      cases decoded
      rw [text, Base64.ofText_eq_encode_iff.mp (Base64.decode_eq_ok_iff.mp decodes)]
      rfl
    · cases decoded
  · rintro rfl
    exact (base64_faithful b).read src

theorem sized_read_iff {n : Nat} {src : Source} {j : Json} {b : Bytes.Sized n} :
    (sized n).read src j = .ok b ↔ j = base64.write b.val := by
  constructor
  · intro read
    obtain ⟨c, found, fits⟩ := Except.bind_eq_ok.mp read
    split at fits
    · cases fits
      exact base64_read_iff.mp found
    · cases fits
  · rintro rfl
    exact (sized_faithful b).read src

theorem text_eq_base64_iff {s : String} {b : Bytes} : Json.text s = base64.write b ↔ s = Base64.text b := by
  constructor
  · intro same
    cases same
    rfl
  · rintro rfl
    rfl

/-- Bytes are read from a text exactly if it is what is written for them, wherever it comes from, and then it has the
form that the format allows; as a field of a fixed size, if they are also of that size. So what is written is read
back, and of two texts only one can be read as given bytes. -/
theorem binary_fields_have_one_text (src : Source) (s : String) (b : Bytes) :
    (base64.read src (.text s) = .ok b ↔ Json.text s = base64.write b) ∧
    (∀ n, (∃ size : b.length = n, (sized n).read src (.text s) = .ok ⟨b, size⟩) ↔
      Json.text s = base64.write b ∧ b.length = n) ∧
    ((∃ c, base64.read src (.text s) = .ok c) ↔ Base64.Canonical (Bytes.ofText s)) ∧
    (∃! t, base64.read src (.text t) = .ok b) ∧
    base64.read src (base64.write b) = .ok b ∧
    ∀ n (c : Bytes.Sized n), (sized n).read src ((sized n).write c) = .ok c := by
  refine ⟨base64_read_iff, fun n => ?_, ?_, ⟨Base64.text b, ?_, ?_⟩, (base64_faithful b).read src,
    fun n c => (sized_faithful c).read src⟩
  · constructor
    · rintro ⟨size, read⟩
      exact ⟨sized_read_iff.mp read, size⟩
    · rintro ⟨written, size⟩
      exact ⟨size, sized_read_iff.mpr written⟩
  · simp only [base64_read_iff, text_eq_base64_iff, ← Base64.ofText_eq_encode_iff]
    constructor
    · rintro ⟨c, written⟩
      exact written ▸ Base64.canonical_encode c
    · exact Base64.Canonical.exists_encode
  · exact base64_read_iff.mpr rfl
  · intro t read
    exact text_eq_base64_iff.mp (base64_read_iff.mp read)

end Json.Codec

end Custody
