import Custody.Key.Store
import Custody.Proofs.Catalog
import Custody.Proofs.Key.Order

/-!
Stores and the lists that they are made of. A list makes a store exactly if none of its sealed texts is empty and
no name comes twice; the store then holds the entries of the list and nothing else, in whatever order they were
listed. Of any other list, the first entry is named that may not follow those before it.
-/

namespace Custody.Store

theorem get?_insert (s : Store) (e : Entry) (id : KeyId) :
    Store.get? (s.insert e) id = if e.id = id then some e else s.get? id := by
  unfold get?
  rw [Catalog.find?_insert]
  by_cases h : e.id = id
  · rw [if_pos h, if_pos (congrArg KeyId.text h)]
  · rw [if_neg h, if_neg fun same => h (KeyId.ext_text same)]

theorem get?_erase (s : Store) (name id : KeyId) :
    Store.get? (s.erase name.text) id = if name = id then none else s.get? id := by
  unfold get?
  rw [Catalog.find?_erase]
  by_cases h : name = id
  · rw [if_pos h, if_pos (congrArg KeyId.text h.symm)]
  · rw [if_neg h, if_neg fun same => h (KeyId.ext_text same.symm)]

theorem id_of_get? {s : Store} {id : KeyId} {e : Entry} (h : s.get? id = some e) : e.id = id :=
  KeyId.ext_text (@Catalog.name_of_find? Entry (fun e => e.id.text) s id.text e h)

theorem mem_iff_get? {s : Store} {e : Entry} : e ∈ s.toList ↔ s.get? e.id = some e :=
  ⟨Catalog.find?_of_mem, Catalog.mem_of_find?⟩

def ids (s : Store) : List KeyId := s.toList.map Entry.id

theorem mem_ids {s : Store} {id : KeyId} : id ∈ s.ids ↔ (s.get? id).isSome := by
  rw [ids, List.mem_map, Option.isSome_iff_exists]
  constructor
  · rintro ⟨e, member, rfl⟩
    exact ⟨e, mem_iff_get?.mp member⟩
  · rintro ⟨e, found⟩
    have same := id_of_get? found
    exact ⟨e, mem_iff_get?.mpr (same ▸ found), same⟩

theorem length_ids (s : Store) : s.ids.length = s.size := List.length_map _

theorem ids_sorted (s : Store) : s.ids.Pairwise fun a b => a.text < b.text :=
  List.pairwise_map.mpr s.sorted

theorem ids_nodup (s : Store) : s.ids.Nodup :=
  s.ids_sorted.imp fun {a b} (less : a.text < b.text) => by
    rintro rfl
    exact String.lt_irrefl _ less

theorem ids_congr {s t : Store} (same : ∀ id, (s.get? id).isSome = (t.get? id).isSome) : s.ids = t.ids := by
  have perm : s.ids.Perm t.ids := (List.perm_ext_iff_of_nodup s.ids_nodup t.ids_nodup).mpr fun id => by
    rw [mem_ids, mem_ids, same]
  -- Both lists are sorted, so the order leaves no choice.
  exact perm.eq_of_pairwise (fun a b _ _ ab ba => absurd (String.lt_trans ab ba) (String.lt_irrefl _))
    s.ids_sorted t.ids_sorted

structure Admissible (l : List Entry) : Prop where
  filled : ∀ e ∈ l, e.sealedText ≠ []
  distinct : l.Pairwise fun a b => a.id ≠ b.id

/-- Why an entry may not follow others. That its sealed text is empty is told before that its name is taken. -/
inductive Refuses (before : List Entry) (e : Entry) : Failure → Prop where
  | empty (none : e.sealedText = []) :
      Refuses before e (.corrupt s!"record '{e.id.text}' has empty ciphertext")
  | repeated {d : Entry} (some : e.sealedText ≠ []) (earlier : d ∈ before) (same : d.id = e.id) :
      Refuses before e (.corrupt s!"duplicate record '{e.id.text}'")

variable {l before after : List Entry} {s : Store} {e : Entry} {f : Failure}

theorem Admissible.perm {order : List Entry} (admissible : Admissible l) (perm : order.Perm l) :
    Admissible order where
  filled e member := admissible.filled e (perm.mem_iff.mp member)
  distinct := (perm.pairwise_iff Ne.symm).mpr admissible.distinct

theorem Refuses.not_admissible (refuses : Refuses before e f) : ¬Admissible (before ++ e :: after) := by
  intro admissible
  cases refuses with
  | empty none => exact admissible.filled e List.mem_append_cons_self none
  | repeated some earlier same =>
    exact (List.pairwise_append.mp admissible.distinct).2.2 _ earlier e List.mem_cons_self same

/-- The store holds the entries of an admissible list and nothing else. -/
structure Gathers (l : List Entry) (s : Store) : Prop where
  admissible : Admissible l
  perm : s.toList.Perm l

namespace Gathers

theorem empty : Gathers [] .empty := ⟨⟨fun _ member => absurd member List.not_mem_nil, .nil⟩, .nil⟩

theorem contains_iff (gathers : Gathers l s) : s.contains e.id.text = true ↔ ∃ d ∈ l, d.id = e.id := by
  have found : s.contains e.id.text = true ↔ e.id ∈ s.ids := mem_ids.symm
  rw [found, ids, List.mem_map]
  exact exists_congr fun d => and_congr_left' gathers.perm.mem_iff

theorem insert (gathers : Gathers l s) (filled : e.sealedText ≠ []) (fresh : ¬∃ d ∈ l, d.id = e.id) :
    Gathers (l ++ [e]) (s.insert e) where
  admissible := by
    refine ⟨fun a member => ?_, List.pairwise_append.mpr ⟨gathers.admissible.distinct, List.pairwise_singleton _ _, ?_⟩⟩
    · rcases List.mem_append.mp member with member | member
      · exact gathers.admissible.filled a member
      · rw [List.mem_singleton.mp member]
        exact filled
    · intro d member a last same
      rw [List.mem_singleton.mp last] at same
      exact fresh ⟨d, member, same⟩
  perm := by
    have absent : s.find? e.id.text = none := by
      rw [← gathers.contains_iff, Catalog.contains] at fresh
      exact Option.not_isSome_iff_eq_none.mp fresh
    have added : (s.insert e).toList.Perm (e :: s.toList) := Catalog.insert_perm absent
    exact added.trans ((gathers.perm.cons e).trans (List.perm_append_singleton e l).symm)

end Gathers

inductive Went (l : List Entry) : Except Failure Store → Prop where
  | made {s : Store} (gathers : Gathers l s) : Went l (.ok s)
  | refused {before after : List Entry} {e : Entry} {f : Failure} (shape : l = before ++ e :: after)
      (admissible : Admissible before) (refuses : Refuses before e f) : Went l (.error f)

theorem addAll_went (gathers : Gathers before s) (l : List Entry) : Went (before ++ l) (s.addAll l) := by
  -- The invariant is that the store holds what was listed so far.
  induction l generalizing before s with
  | nil =>
    rw [List.append_nil]
    exact .made gathers
  | cons e rest ih =>
    rw [addAll]
    split
    · rename_i none
      exact .refused rfl gathers.admissible (.empty none)
    · rename_i filled
      split
      · rename_i taken
        obtain ⟨d, earlier, same⟩ := gathers.contains_iff.mp taken
        exact .refused rfl gathers.admissible (.repeated filled earlier same)
      · rename_i free
        have next := ih (gathers.insert filled (mt gathers.contains_iff.mpr free))
        rwa [List.append_assoc] at next

theorem ofList_went (l : List Entry) : Went l (ofList l) := addAll_went .empty l

theorem gathers_of_ofList (made : ofList l = .ok s) : Gathers l s := by
  have went := ofList_went l
  rw [made] at went
  cases went with
  | made gathers => exact gathers

theorem exists_ofList (admissible : Admissible l) : ∃ s, ofList l = .ok s := by
  have went := ofList_went l
  generalize ofList l = result at went
  cases went with
  | made => exact ⟨_, rfl⟩
  | refused shape _ refuses => exact absurd (shape ▸ admissible) refuses.not_admissible

theorem addAll_append (s : Store) (l r : List Entry) :
    s.addAll (l ++ r) = (s.addAll l).bind fun t => t.addAll r := by
  induction l generalizing s with
  | nil => rfl
  | cons e l ih =>
    rw [List.cons_append, addAll, addAll]
    split
    · rfl
    · split
      · rfl
      · exact ih _

theorem ofList_of_refuses (admissible : Admissible before) (refuses : Refuses before e f) (after : List Entry) :
    ofList (before ++ e :: after) = .error f := by
  obtain ⟨s, made⟩ := exists_ofList admissible
  have first : addAll .empty before = .ok s := made
  have gathers := gathers_of_ofList made
  rw [ofList, addAll_append, first, Except.bind, addAll]
  cases refuses with
  | empty none => rw [if_pos none]
  | repeated some earlier same => rw [if_neg some, if_pos (gathers.contains_iff.mpr ⟨_, earlier, same⟩)]

theorem ofList_perm {s : Store} (filled : ∀ e ∈ s.toList, e.sealedText ≠ []) {order : List Entry}
    (perm : order.Perm s.toList) : ofList order = .ok s := by
  have distinct : s.toList.Pairwise fun a b => a.id ≠ b.id := List.pairwise_map.mp s.ids_nodup
  obtain ⟨t, made⟩ := exists_ofList (Admissible.perm ⟨filled, distinct⟩ perm)
  have same : t = s := Catalog.ext_perm ((gathers_of_ofList made).perm.trans perm)
  rw [made, same]

structure MadeOf (s : Store) (l : List Entry) : Prop where
  found : ∀ e ∈ l, s.get? e.id = some e
  only : ∀ id e, s.get? id = some e → e ∈ l
  size : s.size = l.length
  rearranged : ∀ order : List Entry, order.Perm l → ofList order = .ok s
  /-- However the entries of the store are listed, they are those of the list. -/
  listed : ∀ order : List Entry, order.Perm s.toList → order.Perm l

theorem Gathers.madeOf (gathers : Gathers l s) : s.MadeOf l where
  found e member := mem_iff_get?.mp (gathers.perm.mem_iff.mpr member)
  only id e found := by
    have same := id_of_get? found
    exact gathers.perm.mem_iff.mp (mem_iff_get?.mpr (same ▸ found))
  size := gathers.perm.length_eq
  rearranged order perm := by
    refine ofList_perm (fun e member => ?_) (perm.trans gathers.perm.symm)
    exact gathers.admissible.filled e (gathers.perm.mem_iff.mp member)
  listed order perm := perm.trans gathers.perm

/-- A list makes a store exactly if it is admissible, and then one that holds its entries and nothing else. The
failure tells of the first entry that may not follow those before it. -/
theorem ofList_iff_admissible (l : List Entry) :
    ((∃ s, ofList l = .ok s) ↔ Admissible l) ∧ (∀ s, ofList l = .ok s → s.MadeOf l) ∧
      ∀ f, ofList l = .error f ↔
        ∃ before e after, l = before ++ e :: after ∧ Admissible before ∧ Refuses before e f := by
  refine ⟨⟨?_, exists_ofList⟩, fun s made => (gathers_of_ofList made).madeOf, fun f => ⟨fun refused => ?_, ?_⟩⟩
  · rintro ⟨s, made⟩
    exact (gathers_of_ofList made).admissible
  · have went := ofList_went l
    rw [refused] at went
    cases went with
    | refused shape admissible refuses => exact ⟨_, _, _, shape, admissible, refuses⟩
  · rintro ⟨before, e, after, rfl, admissible, refuses⟩
    exact ofList_of_refuses admissible refuses after

def sample (id : KeyId) (sealedText : Bytes) : Entry :=
  ⟨id, sealedText, ⟨List.replicate 24 7, rfl⟩, ⟨0, 0⟩, .empty⟩

def samples : List Entry := [sample .other [1], sample .plain [2]]

theorem ofList_iff_admissible_samples :
    (∃ s, ofList samples = .ok s ∧ s.MadeOf samples) ∧
      ofList (samples ++ [sample .plain []]) = .error (.corrupt "record 'a' has empty ciphertext") := by
  have admissible : Admissible samples := ⟨by decide, by decide⟩
  constructor
  · obtain ⟨s, made⟩ := (ofList_iff_admissible samples).1.mpr admissible
    exact ⟨s, made, (ofList_iff_admissible samples).2.1 s made⟩
  · exact ((ofList_iff_admissible _).2.2 _).mpr ⟨samples, _, [], rfl, admissible, .empty rfl⟩

end Custody.Store
