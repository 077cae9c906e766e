import Custody.Time.Calendar
import Mathlib.Algebra.GroupWithZero.Nat

/-!
Days and dates. The year found for a day is the one in which it lies, the month is the one in which the
rest falls, and the date of a day has the number of that day.
-/

namespace Custody

namespace Calendar

def yearLength (y : Int) : Int := if isLeap y then 366 else 365

theorem daysBefore_succ (y : Int) : daysBefore (y + 1) = daysBefore y + yearLength y := by
  unfold daysBefore yearLength isLeap
  simp only [Bool.and_eq_true, Bool.or_eq_true, decide_eq_true_eq]
  split <;> omega

theorem yearOf_spec (d : Int) : daysBefore (yearOf d) ≤ d ∧ d < daysBefore (yearOf d + 1) := by
  have low : 146097 * (d * 400 / 146097) ≤ 400 * d := by omega
  have high : 400 * d < 146097 * (d * 400 / 146097) + 146097 := by omega
  unfold yearOf
  generalize d * 400 / 146097 = guess at low high
  by_cases early : d < daysBefore guess
  · simp only [early, if_true, Int.sub_add_cancel, and_true]
    unfold daysBefore
    omega
  · by_cases late : daysBefore (guess + 1) ≤ d
    · simp only [early, late, if_true, if_false, true_and]
      unfold daysBefore
      omega
    · simp only [early, late, if_false]
      omega

theorem sum_monthLengths (y : Int) : ((monthLengths (isLeap y)).sum : Int) = yearLength y := by
  unfold yearLength
  cases isLeap y <;> rfl

theorem monthOf_spec (month : Nat) {l : List Nat} {d : Nat} (inside : d < l.sum) :
    ∃ i n, (monthOf month l d).1 = month + i ∧ l[i]? = some n ∧ (monthOf month l d).2 ≤ n ∧
      1 ≤ (monthOf month l d).2 ∧ (l.take i).sum + ((monthOf month l d).2 - 1) = d := by
  induction l generalizing month d with
  | nil => cases inside
  | cons n rest ih =>
    unfold monthOf
    split
    · rename_i less
      exact ⟨0, n, rfl, rfl, less, by omega, by simp⟩
    · have later : d - n < rest.sum := by
        rw [List.sum_cons] at inside
        omega
      obtain ⟨i, m, same, at_, bound, positive, total⟩ := ih (month + 1) later
      refine ⟨i + 1, m, by omega, at_, bound, positive, ?_⟩
      rw [List.take_succ_cons, List.sum_cons]
      omega

end Calendar

namespace Date

open Calendar

structure Numbers (date : Date) (n : Int) : Prop where
  real : date.exists? = true
  number : date.toDay = n
  month : 1 ≤ date.month ∧ date.month ≤ 12
  day : 1 ≤ date.day ∧ date.day ≤ 31

theorem month_le {leap : Bool} {i m : Nat} (at_ : (monthLengths leap)[i]? = some m) : i < 12 ∧ m ≤ 31 := by
  have longest : ∀ leap, ∀ m ∈ monthLengths leap, m ≤ 31 := by decide
  exact ⟨(List.getElem?_eq_some_iff.mp at_).1, longest leap m (List.mem_of_getElem? at_)⟩

theorem ofDay_numbers (n : Int) : (ofDay n).Numbers n := by
  obtain ⟨low, high⟩ := yearOf_spec (n + epoch)
  have year : (ofDay n).year = yearOf (n + epoch) := rfl
  have inside : (n + epoch - daysBefore (yearOf (n + epoch))).toNat <
      (monthLengths (isLeap (yearOf (n + epoch)))).sum := by
    have total := sum_monthLengths (yearOf (n + epoch))
    rw [daysBefore_succ] at high
    omega
  obtain ⟨i, m, month, at_, bound, positive, total⟩ := monthOf_spec 1 inside
  change (ofDay n).month = 1 + i at month
  change (ofDay n).day ≤ m at bound
  change 1 ≤ (ofDay n).day at positive
  change _ + ((ofDay n).day - 1) = _ at total
  obtain ⟨twelve, longest⟩ := month_le at_
  generalize ofDay n = date at *
  have before : date.month - 1 = i := by omega
  constructor
  · rw [exists?, before, year, at_]
    simp only [Bool.and_eq_true, decide_eq_true_eq]
    omega
  · rw [toDay, before, year]
    simp only [← List.sum_eq_foldl_nat]
    omega
  · omega
  · omega

end Date

end Custody
