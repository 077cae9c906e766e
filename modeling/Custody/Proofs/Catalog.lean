import Custody.Catalog

/-!
Catalogs as maps from names to items. What is found after an insertion or a removal is said by name, and
a catalog is known by what is found in it.
-/

namespace Custody.Catalog

variable {α : Type} {name : α → String}

theorem find?_place (x : α) (s : String) (l : List α) :
    (place name x l).find? (fun a => name a == s) =
      if name x = s then some x else l.find? fun a => name a == s := by
  induction l with
  | nil => by_cases h : name x = s <;> simp [place, h]
  | cons a rest ih =>
    simp only [place]
    split
    · by_cases h : name x = s <;> simp [h]
    · split
      · rename_i same
        by_cases h : name x = s
        · simp [h]
        · have other : name a ≠ s := same ▸ h
          simp [h, other]
      · rename_i differ
        by_cases h : name a = s
        · have other : name x ≠ s := fun e => differ (e.trans h.symm)
          simp [h, other]
        · simp [h, ih]

theorem length_place_le (x : α) (l : List α) : (place name x l).length ≤ l.length + 1 := by
  induction l with
  | nil => exact Nat.le_refl _
  | cons a rest ih =>
    simp only [place]
    split
    · exact Nat.le_refl _
    · split
      · exact Nat.le_succ _
      · exact Nat.succ_le_succ ih

theorem place_perm {x : α} {l : List α} (fresh : ∀ a ∈ l, name a ≠ name x) : (place name x l).Perm (x :: l) := by
  induction l with
  | nil => exact .refl _
  | cons a rest ih =>
    simp only [place]
    split
    · exact .refl _
    · split
      · rename_i same
        exact absurd same.symm (fresh a List.mem_cons_self)
      · have later := ih fun b member => fresh b (List.mem_cons_of_mem a member)
        exact (later.cons a).trans (.swap x a rest)

theorem size_insert_le (c : Catalog name) (x : α) : (c.insert x).size ≤ c.size + 1 :=
  length_place_le x c.toList

@[simp] theorem find?_empty (s : String) : (empty : Catalog name).find? s = none := rfl

@[simp] theorem find?_insert (c : Catalog name) (x : α) (s : String) :
    (c.insert x).find? s = if name x = s then some x else c.find? s :=
  find?_place x s c.toList

@[simp] theorem find?_erase (c : Catalog name) (t s : String) :
    (c.erase t).find? s = if s = t then none else c.find? s := by
  simp only [find?, erase, List.find?_filter]
  split
  · rename_i same
    subst same
    simp
  · rename_i differ
    congr 1
    funext a
    by_cases h : name a = s
    · simp [h, differ]
    · simp [h]

theorem name_of_find? {c : Catalog name} {s : String} {a : α} (h : c.find? s = some a) :
    name a = s := by
  simpa using List.find?_some h

theorem mem_of_find? {c : Catalog name} {s : String} {a : α} (h : c.find? s = some a) :
    a ∈ c.toList := List.mem_of_find?_eq_some h

theorem find?_of_mem {c : Catalog name} {a : α} (h : a ∈ c.toList) : c.find? (name a) = some a := by
  obtain ⟨l, sorted⟩ := c
  simp only [find?] at h ⊢
  induction l with
  | nil => cases h
  | cons b rest ih =>
    obtain ⟨first, tail⟩ := List.pairwise_cons.mp sorted
    rcases List.mem_cons.mp h with rfl | h
    · simp
    · have differ : name b ≠ name a := String.ne_of_lt (first a h)
      simp only [List.find?_cons, beq_eq_false_iff_ne.mpr differ]
      exact ih tail h

theorem insert_perm {c : Catalog name} {x : α} (fresh : c.find? (name x) = none) :
    (c.insert x).toList.Perm (x :: c.toList) := by
  refine place_perm fun a member same => ?_
  have found := find?_of_mem member
  rw [same, fresh] at found
  cases found

theorem ext_perm {c d : Catalog name} (perm : c.toList.Perm d.toList) : c = d := by
  have eq := perm.eq_of_pairwise
    (fun a b _ _ ab ba => absurd (String.lt_trans ab ba) (String.lt_irrefl _)) c.sorted d.sorted
  cases c
  cases d
  cases eq
  rfl

theorem ext_find? {c d : Catalog name} (same : ∀ s, c.find? s = d.find? s) : c = d := by
  have mem (a : α) : a ∈ c.toList ↔ a ∈ d.toList :=
    ⟨fun h => mem_of_find? (same _ ▸ find?_of_mem h), fun h => mem_of_find? (same _ ▸ find?_of_mem h)⟩
  have distinct (c : Catalog name) : c.toList.Nodup :=
    c.sorted.imp fun {a b} (lt : name a < name b) => by
      rintro rfl
      exact String.lt_irrefl _ lt
  exact ext_perm ((List.perm_ext_iff_of_nodup (distinct c) (distinct d)).mpr mem)

theorem name_nodup (c : Catalog name) : (c.toList.map name).Nodup :=
  List.pairwise_map.mpr (c.sorted.imp String.ne_of_lt)

theorem find?_foldl_insert {l : List α} (distinct : (l.map name).Nodup) (c : Catalog name) (s : String) :
    (l.foldl insert c).find? s = (l.find? fun a => name a == s).or (c.find? s) := by
  induction l generalizing c with
  | nil => rfl
  | cons a l ih =>
    obtain ⟨fresh, rest⟩ := List.nodup_cons.mp distinct
    rw [List.foldl_cons, ih rest, find?_insert]
    by_cases h : name a = s
    · have none : (l.find? fun b => name b == s) = none := by
        refine List.find?_eq_none.mpr fun b member same => fresh ?_
        rw [h, ← beq_iff_eq.mp same]
        exact List.mem_map_of_mem member
      simp [h, none]
    · simp [h]

/-- Of the items of one name the last is found. -/
theorem find?_foldl_insert_last (l : List α) (c : Catalog name) (s : String) :
    (l.foldl insert c).find? s = (l.filter fun a => name a == s).getLast?.or (c.find? s) := by
  induction l generalizing c with
  | nil => rfl
  | cons a l ih =>
    rw [List.foldl_cons, ih, find?_insert]
    by_cases h : name a = s
    · rw [List.filter_cons_of_pos (by simpa using h), List.getLast?_cons, if_pos h]
      cases (l.filter fun a => name a == s).getLast? <;> rfl
    · rw [List.filter_cons_of_neg (by simpa using h), if_neg h]

theorem foldl_insert_perm {c : Catalog name} {l : List α} (perm : l.Perm c.toList) :
    l.foldl insert empty = c := by
  have distinct : (l.map name).Nodup := ((perm.map name).nodup_iff).mpr c.name_nodup
  refine ext_find? fun s => ?_
  rw [find?_foldl_insert distinct, find?_empty, Option.or_none]
  cases found : l.find? fun a => name a == s with
  | none =>
    refine (List.find?_eq_none.mpr fun a member => ?_).symm
    exact List.find?_eq_none.mp found a (perm.mem_iff.mpr member)
  | some a =>
    have same : name a = s := by simpa using List.find?_some found
    have member := perm.mem_iff.mp (List.mem_of_find?_eq_some found)
    rw [← same, find?_of_mem member]

theorem foldl_insert_toList (c : Catalog name) : c.toList.foldl insert empty = c :=
  foldl_insert_perm (.refl _)

end Custody.Catalog
