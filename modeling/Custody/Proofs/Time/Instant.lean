import Custody.Proofs.Bytes
import Custody.Proofs.Decimal.Digits
import Custody.Proofs.Json.Codec
import Custody.Proofs.Time.Calendar
import Custody.Time.Reader

/-!
Instants are read back as they are written. Every number is written with its full width, so its digits end
where the reader stops, and the parts are those of the date and the clock from which they were made.
-/

namespace Custody.Instant

instance (t : Instant) : Decidable t.Valid := inferInstanceAs (Decidable (_ ∧ _ ∧ _ ∧ _))

/-- The digits of a number, with zeros in front up to a width. -/
def paddedDigits (width n : Nat) : List Digit :=
  List.replicate (width - (Digit.ofNat n).length) .zero ++ Digit.ofNat n

theorem padded_eq (width n : Nat) : padded width n = Digit.bytes (paddedDigits width n) := by
  have zero : Digit.zero.byte = 48 := rfl
  simp [padded, paddedDigits, Bytes.ofNat, Digit.bytes, zero]

theorem number_paddedDigits (width n : Nat) : Digit.number (paddedDigits width n) = n := by
  rw [paddedDigits, Digit.number_zeros, Digit.number_ofNat]

theorem paddedDigits_ne_nil (width n : Nat) : paddedDigits width n ≠ [] := by
  obtain ⟨d, more, made, -⟩ := Digit.ofNat_eq_cons n
  simp [paddedDigits, made]

theorem length_paddedDigits {w n : Nat} (small : n < 10 ^ (w + 1)) :
    (paddedDigits (w + 1) n).length = w + 1 := by
  have fits := Digit.length_ofNat small
  simp only [paddedDigits, List.length_append, List.length_replicate]
  omega

open Bytes (chars)

theorem digit?_byte : ∀ d : Digit, digit? (Char.ofNat d.byte.toNat) = some d := by decide

theorem isDigit_byte (d : Digit) : isDigit (Char.ofNat d.byte.toNat) = true := by
  rw [isDigit, digit?_byte]
  rfl

theorem chars_digits (ds : List Digit) :
    (∀ c ∈ chars (Digit.bytes ds), isDigit c = true) ∧ (chars (Digit.bytes ds)).filterMap digit? = ds := by
  constructor
  · intro c member
    simp only [chars, Digit.bytes, List.map_map, List.mem_map] at member
    obtain ⟨d, -, rfl⟩ := member
    exact isDigit_byte d
  · induction ds with
    | nil => rfl
    | cons d ds ih => exact (List.filterMap_cons_some (digit?_byte d)).trans (congrArg (d :: ·) ih)

/-- A row of digits is read whole, if it fills the width or no digit follows. -/
theorem digits_chars {w : Nat} {ds : List Digit} {rest : List Char} (some : ds ≠ []) (fits : ds.length ≤ w)
    (stop : ds.length = w ∨ ∀ c ∈ rest.head?, isDigit c = false) :
    digits w (chars (Digit.bytes ds) ++ rest) = .ok (ds, rest) := by
  obtain ⟨all, values⟩ := chars_digits ds
  have length : (chars (Digit.bytes ds)).length = ds.length := by simp [chars, Digit.bytes]
  have taken : ((chars (Digit.bytes ds) ++ rest).take w).takeWhile isDigit = chars (Digit.bytes ds) := by
    rw [List.take_append, List.take_of_length_le (by omega), List.takeWhile_append_of_pos all]
    have none : (rest.take (w - (chars (Digit.bytes ds)).length)).takeWhile isDigit = [] := by
      rcases stop with full | stop
      · rw [length, full, Nat.sub_self]
        rfl
      · cases rest with
        | nil => simp
        | cons c rest =>
          have other := stop c rfl
          cases w - (chars (Digit.bytes ds)).length with
          | zero => rfl
          | succ k => simp [other]
    rw [none, List.append_nil]
  have cons : ds.length ≠ 0 := fun none => some (List.length_eq_zero_iff.mp none)
  have first : chars (Digit.bytes ds) ≠ [] := fun none => cons (by rw [← length, none]; rfl)
  unfold digits
  simp only [taken, values, List.drop_left]
  rw [if_neg (by simp [first]), if_neg first]

theorem trimStart_digits {ds : List Digit} (some : ds ≠ []) (rest : List Char) :
    Text.trimStart (chars (Digit.bytes ds) ++ rest) = chars (Digit.bytes ds) ++ rest := by
  have digit : ∀ d : Digit, Text.isBlank (Char.ofNat d.byte.toNat) = false := by decide
  cases ds with
  | nil => exact absurd rfl some
  | cons d ds => exact List.dropWhile_cons_of_neg (by simp [digit d])

theorem number_padded {n low high : Nat} (rest : List Char) (small : n < 100) (least : low ≤ n)
    (most : n ≤ high) : number 2 low high (chars (padded 2 n) ++ rest) = .ok (n, rest) := by
  have length := length_paddedDigits (w := 1) small
  have some := paddedDigits_ne_nil 2 n
  rw [number, padded_eq, trimStart_digits some, digits_chars some (Nat.le_of_eq length) (.inl length)]
  change (if _ then _ else _) = _
  rw [number_paddedDigits, if_pos ⟨least, most⟩]

theorem separator_self {c : Char} (shown : Text.isBlank c = false) (rest : List Char) :
    separator c (c :: rest) = .ok rest := by
  have kept : Text.trimStart (c :: rest) = c :: rest := List.dropWhile_cons_of_neg (by simp [shown])
  rw [separator, kept, mark, if_pos List.mem_cons_self]

theorem year_digits {ds : List Digit} (rest : List Char) (four : ds.length = 4) :
    year (chars (Digit.bytes ds) ++ rest) = .ok (Digit.number ds, rest) := by
  have some : ds ≠ [] := by
    rintro rfl
    cases four
  have digit : ∀ d : Digit, Char.ofNat d.byte.toNat ≠ '-' ∧ Char.ofNat d.byte.toNat ≠ '+' := by decide
  have read := @digits_chars 4 ds rest some (Nat.le_of_eq four) (.inl four)
  have start := trimStart_digits some rest
  unfold year
  rw [start]
  cases ds with
  | nil => cases four
  | cons d ds =>
    obtain ⟨minus, plus⟩ := digit d
    split
    · rename_i same
      exact absurd (List.cons.inj same).1 minus
    · rename_i same
      exact absurd (List.cons.inj same).1 plus
    · rw [read]
      rfl

theorem year_renderYear {y : Int} {rest : List Char} (first : firstYear ≤ y) (last : y ≤ lastYear)
    (stop : ∀ c ∈ rest.head?, isDigit c = false) :
    year (chars (renderYear y) ++ rest) = .ok (y, rest) := by
  unfold firstYear at first
  unfold lastYear at last
  unfold renderYear
  split
  · rename_i short
    have four := length_paddedDigits (w := 3) (n := y.toNat) (by omega)
    have whole : (y.toNat : Int) = y := by omega
    rw [padded_eq, year_digits rest four, number_paddedDigits, whole]
  · have some := paddedDigits_ne_nil 4 y.natAbs
    have read : digits (chars (padded 4 y.natAbs) ++ rest).length (chars (padded 4 y.natAbs) ++ rest) =
        .ok (paddedDigits 4 y.natAbs, rest) := by
      rw [padded_eq]
      refine digits_chars some ?_ (.inr stop)
      simp [chars, Digit.bytes]
    by_cases negative : y < 0
    · have whole : -(y.natAbs : Int) = y := by omega
      simp only [negative, if_true, Bytes.chars_cons, List.cons_append]
      generalize chars (padded 4 y.natAbs) ++ rest = s at read
      change (digits s.length s).bind _ = _
      rw [read]
      change (if _ then _ else _) = _
      rw [number_paddedDigits, if_pos (by omega), whole]
    · have whole : (y.natAbs : Int) = y := by omega
      simp only [negative, if_false, Bytes.chars_cons, List.cons_append]
      generalize chars (padded 4 y.natAbs) ++ rest = s at read
      change (digits s.length s).bind _ = _
      rw [read]
      change (if _ then _ else _) = _
      rw [number_paddedDigits, if_pos (by omega), whole]

theorem fraction_digits {ds : List Digit} {rest : List Char} (some : ds ≠ []) (fits : ds.length ≤ 9)
    (stop : ∀ c ∈ rest.head?, isDigit c = false) :
    fraction ('.' :: (chars (Digit.bytes ds) ++ rest)) =
      .ok (Digit.number ds * Nat.pow 10 (9 - ds.length), rest) := by
  have left : rest.dropWhile isDigit = rest := by
    cases rest with
    | nil => rfl
    | cons c rest => exact List.dropWhile_cons_of_neg (by simp [stop c rfl])
  have read := digits_chars some fits (.inr stop)
  change (digits 9 _).bind _ = _
  rw [read]
  simp only [Except.bind, left]

theorem fraction_padded {w n : Nat} {rest : List Char} (fits : n < 10 ^ (w + 1)) (nine : w + 1 ≤ 9)
    (stop : ∀ c ∈ rest.head?, isDigit c = false) :
    fraction (chars (46 :: padded (w + 1) n) ++ rest) = .ok (n * Nat.pow 10 (9 - (w + 1)), rest) := by
  have length := length_paddedDigits fits
  have read := fraction_digits (paddedDigits_ne_nil (w + 1) n) (by omega) stop
  rw [length, number_paddedDigits, ← padded_eq] at read
  exact read

theorem fraction_renderFraction {nano : Nat} {rest : List Char} (small : nano < 1000000000)
    (stop : ∀ c ∈ rest.head?, isDigit c = false ∧ c ≠ '.') :
    fraction (chars (renderFraction nano) ++ rest) = .ok (nano, rest) := by
  have ends : ∀ c ∈ rest.head?, isDigit c = false := fun c first => (stop c first).1
  unfold renderFraction
  split
  · rename_i zero
    subst zero
    cases rest with
    | nil => rfl
    | cons c rest =>
      have point : c ≠ '.' := (stop c rfl).2
      change fraction (c :: rest) = _
      unfold fraction
      split
      · rename_i same
        exact absurd (List.cons.inj same).1 point
      · rfl
  · split
    · have whole : nano / 1000000 * Nat.pow 10 (9 - (2 + 1)) = nano := by
        have power : Nat.pow 10 (9 - (2 + 1)) = 1000000 := rfl
        rw [power]
        omega
      rw [fraction_padded (w := 2) (by omega) (by decide) ends, whole]
    · split
      · have whole : nano / 1000 * Nat.pow 10 (9 - (5 + 1)) = nano := by
          have power : Nat.pow 10 (9 - (5 + 1)) = 1000 := rfl
          rw [power]
          omega
        rw [fraction_padded (w := 5) (by omega) (by decide) ends, whole]
      · rw [fraction_padded (w := 8) small (by decide) ends]
        exact congrArg (fun n => Except.ok (n, rest)) (Nat.mul_one nano)

theorem offset_zulu : offset (Text.trimStart ['Z']) = .ok (0, []) := by decide

theorem ofParts_date {t : Instant} (valid : t.Valid) :
    ofParts t.date ((t.second % 86400).toNat / 3600) ((t.second % 86400).toNat / 60 % 60)
      ((t.second % 86400).toNat % 60 + t.nano / 1000000000) (t.nano % 1000000000) 0 = .ok t := by
  obtain ⟨first, last, fits, leap⟩ := valid
  obtain ⟨real, number, -, -⟩ := Date.ofDay_numbers (t.second / 86400)
  change t.date.exists? = true at real
  change t.date.toDay = _ at number
  have range : (decide (firstYear ≤ t.date.year) && decide (t.date.year ≤ lastYear)) = true := by
    simp [first, last]
  unfold ofParts
  simp only [real, range, Bool.and_self, Bool.not_true, Bool.false_eq_true, if_false, number]
  rw [if_neg (by decide)]
  by_cases long : 1000000000 ≤ t.nano
  · have end_ := leap long
    have sixty : (t.second % 86400).toNat % 60 + t.nano / 1000000000 = 60 := by omega
    have whole : t.nano % 1000000000 + 1000000000 = t.nano := by omega
    have same : t.second / 86400 * 86400 + (((t.second % 86400).toNat / 3600 : Nat) * 3600 +
        ((t.second % 86400).toNat / 60 % 60 : Nat) * 60 + (59 : Nat)) - 0 = t.second := by omega
    simp only [sixty, if_true, whole, same, range]
  · have other : (t.second % 86400).toNat % 60 + t.nano / 1000000000 ≠ 60 := by omega
    have whole : t.nano % 1000000000 = t.nano := by omega
    have same : t.second / 86400 * 86400 + (((t.second % 86400).toNat / 3600 : Nat) * 3600 +
        ((t.second % 86400).toNat / 60 % 60 : Nat) * 60 +
          ((t.second % 86400).toNat % 60 + t.nano / 1000000000 : Nat)) - 0 = t.second := by omega
    simp only [other, if_false, whole, same, range, if_true]

theorem ofText_text {t : Instant} (valid : t.Valid) : ofText t.text = .ok t := by
  obtain ⟨first, last, fits, leap⟩ := id valid
  obtain ⟨-, -, month, day⟩ := Date.ofDay_numbers (t.second / 86400)
  have dash : isDigit '-' = false := by decide
  have zulu : isDigit 'Z' = false ∧ 'Z' ≠ '.' := by decide
  have years (rest : List Char) := @year_renderYear t.date.year ('-' :: rest) first last (by simp [dash])
  have months (rest : List Char) := number_padded rest (Nat.lt_of_le_of_lt month.2 (by decide)) month.1 month.2
  have days (rest : List Char) := number_padded rest (Nat.lt_of_le_of_lt day.2 (by decide)) day.1 day.2
  have hours (rest : List Char) := @number_padded ((t.second % 86400).toNat / 3600) 0 23 rest (by omega)
    (by omega) (by omega)
  have minutes (rest : List Char) := @number_padded ((t.second % 86400).toNat / 60 % 60) 0 59 rest (by omega)
    (by omega) (by omega)
  have seconds (rest : List Char) := @number_padded ((t.second % 86400).toNat % 60 + t.nano / 1000000000) 0 60
    rest (by omega) (by omega) (by omega)
  have rests := @fraction_renderFraction (t.nano % 1000000000) ['Z'] (by omega) (by simpa using zulu)
  have marks : Char.ofNat (45 : UInt8).toNat = '-' ∧ Char.ofNat (58 : UInt8).toNat = ':' ∧
      Char.ofNat (84 : UInt8).toNat = 'T' ∧ Char.ofNat (90 : UInt8).toNat = 'Z' := by decide
  change ∀ rest, number 2 1 12 (chars (padded 2 t.date.month) ++ rest) = _ at months
  change ∀ rest, number 2 1 31 (chars (padded 2 t.date.day) ++ rest) = _ at days
  have dashes (rest : List Char) : separator '-' ('-' :: rest) = .ok rest := separator_self rfl rest
  have colons (rest : List Char) : separator ':' (':' :: rest) = .ok rest := separator_self rfl rest
  have tees (rest : List Char) : mark ['T', 't', ' '] ('T' :: rest) = .ok rest := rfl
  rw [ofText, text, Bytes.toList_ascii, render]
  simp only [Bytes.chars_append, Bytes.chars_cons, Bytes.chars_nil, List.append_assoc, List.cons_append,
    marks, years, months, days, hours, minutes, seconds, dashes, colons, tees, rests,
    offset_zulu, bind, Except.bind]
  exact ofParts_date valid

theorem length_digits {w : Nat} {ds : List Digit} {s rest : List Char} (read : digits w s = .ok (ds, rest)) :
    ds.length ≤ w := by
  unfold digits at read
  simp only at read
  split at read
  · cases read
  · split at read
    · cases read
    · cases read
      have short := List.length_filterMap_le digit? ((s.take w).takeWhile isDigit)
      have taken := (List.takeWhile_prefix isDigit (l := s.take w)).length_le
      rw [List.length_take] at taken
      omega

theorem fraction_lt {nano : Nat} {s rest : List Char} (read : fraction s = .ok (nano, rest)) :
    nano < 1000000000 := by
  unfold fraction at read
  split at read
  · obtain ⟨⟨ds, s⟩, taken, value⟩ := Except.bind_eq_ok.mp read
    cases value
    have fits := length_digits taken
    have power : 0 < 10 ^ (9 - ds.length) := Nat.pow_pos (by decide)
    have bound := Nat.mul_lt_mul_of_pos_right (Digit.number_lt ds) power
    rw [← Nat.pow_add, Nat.add_sub_cancel' fits] at bound
    exact bound
  · cases read
    decide

theorem offset_minutes {shift : Int} {s rest : List Char} (read : offset s = .ok (shift, rest)) :
    shift % 60 = 0 := by
  unfold offset at read
  split at read
  · cases read
  · split at read
    · cases read
      rfl
    · split at read
      · cases read
        rfl
      · split at read
        · obtain ⟨⟨hours, s⟩, -, read⟩ := Except.bind_eq_ok.mp read
          obtain ⟨⟨minutes, s⟩, -, read⟩ := Except.bind_eq_ok.mp read
          change (if _ then Except.ok (if _ then _ else _, s) else _) = _ at read
          split at read
          · cases read
            split <;> omega
          · cases read
        · cases read

theorem ofParts_valid {date : Date} {hour minute second nano : Nat} {shift : Int} {t : Instant}
    (fits : nano < 1000000000) (minutes : shift % 60 = 0)
    (read : ofParts date hour minute second nano shift = .ok t) : t.Valid := by
  by_cases sixty : second = 60
  · simp only [ofParts, sixty, if_true] at read
    split_ifs at read with _ _ range
    cases read
    simp only [Bool.and_eq_true, decide_eq_true_eq] at range
    exact ⟨range.1, range.2, by simp only; omega, fun _ => by simp only; omega⟩
  · simp only [ofParts, sixty, if_false] at read
    split_ifs at read with _ _ range
    cases read
    simp only [Bool.and_eq_true, decide_eq_true_eq] at range
    exact ⟨range.1, range.2, by simp only; omega, fun long => absurd fits (Nat.not_lt.mpr long)⟩

theorem ofText_valid {s : String} {t : Instant} (read : ofText s = .ok t) : t.Valid := by
  obtain ⟨⟨y, s⟩, -, read⟩ := Except.bind_eq_ok.mp read
  obtain ⟨s, -, read⟩ := Except.bind_eq_ok.mp read
  obtain ⟨⟨month, s⟩, -, read⟩ := Except.bind_eq_ok.mp read
  obtain ⟨s, -, read⟩ := Except.bind_eq_ok.mp read
  obtain ⟨⟨day, s⟩, -, read⟩ := Except.bind_eq_ok.mp read
  obtain ⟨s, -, read⟩ := Except.bind_eq_ok.mp read
  obtain ⟨⟨hour, s⟩, -, read⟩ := Except.bind_eq_ok.mp read
  obtain ⟨s, -, read⟩ := Except.bind_eq_ok.mp read
  obtain ⟨⟨minute, s⟩, -, read⟩ := Except.bind_eq_ok.mp read
  obtain ⟨s, -, read⟩ := Except.bind_eq_ok.mp read
  obtain ⟨⟨second, s⟩, -, read⟩ := Except.bind_eq_ok.mp read
  obtain ⟨⟨nano, s⟩, part, read⟩ := Except.bind_eq_ok.mp read
  obtain ⟨⟨shift, s⟩, zone, read⟩ := Except.bind_eq_ok.mp read
  change (if _ then _ else ofParts ⟨y, month, day⟩ hour minute second nano shift) = _ at read
  split at read
  · cases read
  · exact ofParts_valid (fraction_lt part) (offset_minutes zone) read

theorem codec_faithful {t : Instant} (valid : t.Valid) : codec.Faithful t where
  plain := .text t.text
  read src := by
    simp only [codec, Json.text, ofText_text valid]

theorem codec_stable : codec.Stable := by
  intro src j t read
  cases j with
  | string s =>
    cases s with
    | none => cases read
    | some s =>
      simp only [codec] at read
      split at read
      · rename_i same
        cases read
        exact codec_faithful (ofText_valid same)
      · cases read
  | null | bool | number | array | object => cases read

end Custody.Instant
