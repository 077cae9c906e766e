import Custody.Json.Tagged
import Mathlib.Data.List.Forall2
import Mathlib.Data.List.Permutation

/-!
Documents that differ in the order of members. The members of an object may come in any order down to some depth;
below it those that share a name keep their order among themselves.
-/

namespace Custody.Json

variable {R S : Option String → Json → Json → Prop} {ms ms' : List (Option String × Json)}

def Shuffled (R : Option String → Json → Json → Prop) (ms ms' : List (Option String × Json)) : Prop :=
  ∃ mid, ms.Perm mid ∧ List.Forall₂ (fun m m' => m.1 = m'.1 ∧ R m.1 m.2 m'.2) mid ms'

namespace Shuffled

theorem of_perm (perm : ms.Perm ms') (same : ∀ s j, R s j j) : Shuffled R ms ms' :=
  ⟨ms', perm, List.forall₂_same.mpr fun m _ => ⟨rfl, same m.1 m.2⟩⟩

theorem imp (shuffled : Shuffled R ms ms')
    (each : ∀ s j j', (s, j) ∈ ms → (s, j') ∈ ms' → R s j j' → S s j j') : Shuffled S ms ms' := by
  obtain ⟨mid, perm, related⟩ := shuffled
  obtain ⟨length, related⟩ := List.forall₂_iff_zip.mp related
  refine ⟨mid, perm, List.forall₂_iff_zip.mpr ⟨length, ?_⟩⟩
  rintro ⟨s, j⟩ ⟨s', j'⟩ zipped
  obtain ⟨rfl, held⟩ := related zipped
  obtain ⟨left, right⟩ := List.of_mem_zip zipped
  exact ⟨rfl, each s j j' (perm.mem_iff.mpr left) right held⟩

theorem filter (shuffled : Shuffled R ms ms') (p : Option String → Bool) :
    Shuffled R (ms.filter fun m => p m.1) (ms'.filter fun m => p m.1) := by
  obtain ⟨mid, perm, related⟩ := shuffled
  refine ⟨_, perm.filter _, List.rel_filter ?_ related⟩
  rintro m m' ⟨same, -⟩
  exact iff_of_eq (congrArg (p · = true) same)

theorem exists_of_mem (shuffled : Shuffled R ms ms') {s : Option String} {j' : Json} (member : (s, j') ∈ ms') :
    ∃ j, (s, j) ∈ ms ∧ R s j j' := by
  obtain ⟨mid, perm, related⟩ := shuffled
  suffices ∃ j, (s, j) ∈ mid ∧ R s j j' by simpa only [perm.mem_iff] using this
  clear perm
  induction related with
  | nil => cases member
  | @cons m m' mid ms' first _ ih =>
    rcases List.mem_cons.mp member with rfl | member
    · obtain ⟨rfl, held⟩ := first
      exact ⟨m.2, List.mem_cons_self, held⟩
    · obtain ⟨j, inside, held⟩ := ih member
      exact ⟨j, List.mem_cons_of_mem m inside, held⟩

theorem nil (shuffled : Shuffled R [] ms') : ms' = [] := by
  obtain ⟨mid, perm, related⟩ := shuffled
  cases perm.nil_eq
  exact List.forall₂_nil_left_iff.mp related

theorem one {s : Option String} {j : Json} (shuffled : Shuffled R [(s, j)] ms') :
    ∃ j', ms' = [(s, j')] ∧ R s j j' := by
  obtain ⟨mid, perm, related⟩ := shuffled
  cases List.singleton_perm.mp perm
  obtain ⟨⟨_, j'⟩, _, ⟨rfl, held⟩, none, rfl⟩ := List.forall₂_cons_left_iff.mp related
  cases List.forall₂_nil_left_iff.mp none
  exact ⟨j', rfl, held⟩

theorem two {s t : Option String} {j k : Json} (shuffled : Shuffled R [(s, j), (t, k)] ms') :
    ∃ j' k', R s j j' ∧ R t k k' ∧ (ms' = [(s, j'), (t, k')] ∨ ms' = [(t, k'), (s, j')]) := by
  obtain ⟨mid, perm, related⟩ := shuffled
  rcases List.perm_pair.mp perm.symm with rfl | rfl
  all_goals
    obtain ⟨⟨_, j'⟩, _, ⟨rfl, first⟩, rest, rfl⟩ := List.forall₂_cons_left_iff.mp related
    obtain ⟨⟨_, k'⟩, _, ⟨rfl, second⟩, none, rfl⟩ := List.forall₂_cons_left_iff.mp rest
    cases List.forall₂_nil_left_iff.mp none
  · exact ⟨j', k', first, second, .inl rfl⟩
  · exact ⟨k', j', second, first, .inr rfl⟩

end Shuffled

/-- The same document but for the order of members. Down to the depth they come in any order, and one level below it
those of one name keep their order among themselves. -/
def Reordered : Nat → Json → Json → Prop
  | 0, .object ms, .object ms' => ∀ s, (ms.filter fun m => m.1 == s) = ms'.filter fun m => m.1 == s
  | n + 1, .object ms, .object ms' => Shuffled (fun _ => Reordered n) ms ms'
  | _, j, j' => j = j'

variable {n limit : Nat} {j j' : Json}

theorem perm_of_kept (kept : ∀ s, (ms.filter fun m => m.1 == s) = ms'.filter fun m => m.1 == s) : ms.Perm ms' := by
  classical
  refine List.perm_iff_count.mpr fun m => ?_
  have all (l : List (Option String × Json)) : l.count m = (l.filter fun k => k.1 == m.1).count m :=
    (List.count_filter (by simp)).symm
  rw [all ms, all ms', kept]

namespace Reordered

theorem refl (n : Nat) (j : Json) : Reordered n j j := by
  induction n generalizing j with
  | zero =>
    cases j with
    | object ms => exact fun _ => rfl
    | null | bool | number | string | array => rfl
  | succ n ih =>
    cases j with
    | object ms => exact .of_perm (.refl ms) fun _ => ih
    | null | bool | number | string | array => rfl

theorem eq_of_flat (reordered : Reordered n j j') (flat : ∀ ms, j ≠ .object ms) : j' = j := by
  cases j with
  | object ms => exact absurd rfl (flat ms)
  | null | bool | number | string | array =>
    cases n <;> exact (reordered : _ = j').symm

theorem object (reordered : Reordered n (.object ms) j') :
    ∃ ms', j' = .object ms' ∧ Shuffled (fun _ => Reordered (n - 1)) ms ms' := by
  cases j' with
  | object ms' =>
    refine ⟨ms', rfl, ?_⟩
    cases n with
    | zero => exact .of_perm (perm_of_kept reordered) fun _ => refl 0
    | succ n => exact reordered
  | null | bool | number | string | array => cases n <;> cases reordered

theorem eq_or_object (reordered : Reordered n j j') :
    j' = j ∨ ∃ ms ms', j = .object ms ∧ j' = .object ms' ∧ Shuffled (fun _ => Reordered (n - 1)) ms ms' := by
  cases j with
  | object ms =>
    obtain ⟨ms', rfl, shuffled⟩ := reordered.object
    exact .inr ⟨ms, ms', rfl, rfl, shuffled⟩
  | null | bool | number | string | array => exact .inl (reordered.eq_of_flat nofun)

end Reordered

theorem readableMembers_iff : readableMembers ms = true ↔ ∀ m ∈ ms, m.1.isSome = true ∧ m.2.readable = true := by
  induction ms with
  | nil => simp [readableMembers]
  | cons m ms ih => simp [readableMembers, ih]

theorem shallowMembers_iff : shallowMembers limit ms = true ↔ ∀ m ∈ ms, m.2.shallow limit = true := by
  induction ms with
  | nil => simp [shallowMembers]
  | cons m ms ih => simp [shallowMembers, ih]

def Admitted (limit : Nat) (j : Json) : Prop := j.readable = true ∧ j.shallow limit = true

theorem admitted_object :
    (object ms).Admitted limit ↔ 0 < limit ∧ ∀ m ∈ ms, m.1.isSome = true ∧ m.2.Admitted (limit - 1) := by
  simp only [Admitted, readable, shallow, readableMembers_iff, shallowMembers_iff, Bool.and_eq_true, decide_eq_true_eq]
  constructor
  · rintro ⟨names, deep, shallow⟩
    exact ⟨deep, fun m member => ⟨(names m member).1, (names m member).2, shallow m member⟩⟩
  · rintro ⟨deep, each⟩
    exact ⟨fun m member => ⟨(each m member).1, (each m member).2.1⟩, deep, fun m member => (each m member).2.2⟩

theorem Reordered.admitted {n limit : Nat} {j j' : Json} (reordered : Reordered n j j') (admitted : j.Admitted limit) :
    j'.Admitted limit := by
  obtain rfl | ⟨ms, ms', rfl, rfl, shuffled⟩ := reordered.eq_or_object
  · exact admitted
  obtain ⟨deep, each⟩ := admitted_object.mp admitted
  refine admitted_object.mpr ⟨deep, ?_⟩
  rintro ⟨s, j'⟩ member
  obtain ⟨j, inside, related⟩ := shuffled.exists_of_mem member
  obtain ⟨named, below⟩ := each _ inside
  exact ⟨named, related.admitted below⟩
-- at the bottom `n` falls no further, but the admitted depth does
termination_by limit

def valuesOf (s : String) (ms : List (Option String × Json)) : List Json :=
  (ms.filter fun m => m.1 == some s).map Prod.snd

theorem mem_valuesOf {s : String} : j ∈ valuesOf s ms ↔ (some s, j) ∈ ms := by
  simp [valuesOf]

namespace Shuffled

variable {s : String}

theorem valuesOf_nil (shuffled : Shuffled R ms ms') (none : valuesOf s ms = []) : valuesOf s ms' = [] := by
  have same := shuffled.filter (· == some s)
  rw [List.map_eq_nil_iff.mp none] at same
  rw [valuesOf, same.nil, List.map_nil]

theorem valuesOf_one (shuffled : Shuffled R ms ms') (one : valuesOf s ms = [j]) :
    ∃ j', valuesOf s ms' = [j'] ∧ R (some s) j j' := by
  have same := shuffled.filter (· == some s)
  obtain ⟨⟨t, j⟩, found, rfl⟩ := List.map_eq_singleton_iff.mp one
  have member : (t, j) ∈ ms.filter fun m => m.1 == some s := found ▸ List.mem_singleton_self _
  obtain rfl : t = some s := by simpa using (List.mem_filter.mp member).2
  rw [found] at same
  obtain ⟨j', found', held⟩ := same.one
  exact ⟨j', by rw [valuesOf, found', List.map_singleton], held⟩

end Shuffled

def named (s : String) : Json → List Json
  | .object ms => valuesOf s ms
  | _ => []

end Custody.Json
