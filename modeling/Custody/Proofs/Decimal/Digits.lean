import Custody.Decimal.Digits
import Mathlib.Algebra.GroupWithZero.Nat
import Mathlib.Data.List.Induction

/-!
Numbers come back from their digits. A row of digits is cut off whole from what follows it, and the digits
of a number do not begin with a zero that could be left out.
-/

namespace Custody.Digit

theorem ofByte?_byte : ∀ d : Digit, ofByte? d.byte = some d := by decide

theorem number_append (ds es : List Digit) :
    number (ds ++ es) = es.foldl (fun n d => n * 10 + d.val) (number ds) := by
  simp [number, List.foldl_append]

theorem number_prepend (n : Nat) (ds : List Digit) :
    number (prepend n ds) = ds.foldl (fun n d => n * 10 + d.val) n := by
  fun_induction prepend n ds with
  | case1 n ds d small =>
    have whole : 0 * 10 + n % 10 = n := by omega
    change ds.foldl _ (0 * 10 + n % 10) = _
    rw [whole]
  | case2 n ds d large ih =>
    have whole : n / 10 * 10 + n % 10 = n := by omega
    rw [ih]
    change ds.foldl _ (n / 10 * 10 + n % 10) = _
    rw [whole]

theorem number_ofNat (n : Nat) : number (ofNat n) = n := number_prepend n []

theorem number_zeros (k : Nat) (ds : List Digit) : number (List.replicate k zero ++ ds) = number ds := by
  have none : number (List.replicate k zero) = 0 := by
    induction k with
    | zero => rfl
    | succ k ih => exact ih
  rw [number_append, none]
  rfl

theorem number_lt (ds : List Digit) : number ds < 10 ^ ds.length := by
  induction ds using List.reverseRecOn with
  | nil => exact Nat.one_pos
  | append_singleton ds d ih =>
    have last := d.isLt
    rw [number_append, List.length_append, List.length_singleton, Nat.pow_succ]
    simp only [List.foldl_cons, List.foldl_nil]
    omega

theorem prepend_eq_cons (n : Nat) (ds : List Digit) :
    ∃ d more, prepend n ds = d :: (more ++ ds) ∧ (d = zero → n = 0 ∧ more = []) := by
  fun_induction prepend n ds with
  | case1 n ds d small =>
    refine ⟨d, [], rfl, fun first => ⟨?_, rfl⟩⟩
    have same : n % 10 = 0 := congrArg Fin.val first
    omega
  | case2 n ds d large ih =>
    obtain ⟨e, more, made, first⟩ := ih
    refine ⟨e, more ++ [d], by rw [made, List.append_assoc]; rfl, fun zero => ?_⟩
    have front := (first zero).1
    omega

theorem ofNat_eq_cons (n : Nat) : ∃ d more, ofNat n = d :: more ∧ (d = zero → more = []) := by
  obtain ⟨d, more, made, first⟩ := prepend_eq_cons n []
  exact ⟨d, more, by rw [ofNat, made, List.append_nil], fun zero => (first zero).2⟩

theorem length_prepend {w n : Nat} (small : n < 10 ^ (w + 1)) (ds : List Digit) :
    (prepend n ds).length ≤ w + 1 + ds.length := by
  induction w generalizing n ds with
  | zero =>
    have one : n < 10 := by simpa using small
    rw [prepend, dif_pos one, List.length_cons]
    omega
  | succ w ih =>
    rw [prepend]
    split
    · rw [List.length_cons]
      omega
    · have front := ih (n := n / 10) (by rw [Nat.pow_succ] at small; omega) (⟨n % 10, by omega⟩ :: ds)
      rw [List.length_cons] at front
      omega

theorem length_ofNat {w n : Nat} (small : n < 10 ^ (w + 1)) : (ofNat n).length ≤ w + 1 :=
  length_prepend small []

theorem split_bytes (ds : List Digit) {rest : Bytes} (stop : ∀ c ∈ rest.head?, ofByte? c = none) :
    split (bytes ds ++ rest) = (ds, rest) := by
  induction ds with
  | nil =>
    cases rest with
    | nil => rfl
    | cons c rest =>
      have other : (ofByte? c).isSome = false := by rw [stop c rfl]; rfl
      simp [split, bytes, other]
  | cons d ds ih =>
    have digit : (ofByte? d.byte).isSome = true := by rw [ofByte?_byte]; rfl
    simp only [split, bytes, List.map_cons, List.cons_append, List.takeWhile_cons, List.dropWhile_cons,
      digit, if_true, List.filterMap_cons_some (ofByte?_byte d)] at ih ⊢
    obtain ⟨taken, left⟩ := Prod.mk.inj ih
    rw [taken, left]

end Custody.Digit
