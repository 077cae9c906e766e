import Custody.Proofs.Json.Codec
import Custody.Proofs.Json.Reordering
import Mathlib.Data.List.Perm.Basic

/-!
What the reading of a record depends on: the values of each name, whatever order they come in. Dictionaries alone see
an order, that of the texts of one name.
-/

namespace Custody.Json

variable {R : Option String → Json → Json → Prop} {ms ms' : List (Option String × Json)} {src src' : Source}

def Named (ms : List (Option String × Json)) : Prop := ∀ m ∈ ms, m.1.isSome = true

theorem Shuffled.named (shuffled : Shuffled R ms ms') (named : Named ms) : Named ms' := by
  rintro ⟨s, j'⟩ member
  obtain ⟨j, inside, -⟩ := shuffled.exists_of_mem member
  exact named (s, j) inside

def Codec.Follows {α : Type} (src src' : Source) (R : Json → Json → Prop) (c : Codec α) : Prop :=
  ∀ j j' a, R j j' → c.read src j = .ok a → c.read src' j' = .ok a

namespace Schema

/-- The record that the values of each name make, in whatever order they come. -/
def Holds (src : Source) : {ts : List Type} → Schema ts → List (Option String × Json) → Values ts → Prop
  | _, .nil, ms, () => Named ms
  | _, .field name codec fallback rest, ms, (a, vs) =>
    (valuesOf name ms = [] ∧ fallback = some a ∨ ∃ j, valuesOf name ms = [j] ∧ codec.read src j = .ok a) ∧
      rest.Holds src (ms.filter fun m => m.1 != some name) vs

def Fills {α : Type} (src : Source) (codec : Codec α) (values : List Json) (slot slot' : Option α) : Prop :=
  values = [] ∧ slot' = slot ∨ slot = none ∧ ∃ j a, values = [j] ∧ codec.read src j = .ok a ∧ slot' = some a

theorem putAll_field_eq_ok {α : Type} {ts : List Type} {name : String} {codec : Codec α} {fallback : Option α}
    {rest : Schema ts} {slot slot' : Option α} {slots slots' : Slots ts} :
    putAll src (.field name codec fallback rest) ms (slot, slots) = .ok (slot', slots') ↔
      Fills src codec (valuesOf name ms) slot slot' ∧
        putAll src rest (ms.filter fun m => m.1 != some name) slots = .ok slots' := by
  induction ms generalizing slot slots with
  | nil =>
    constructor
    · rintro ⟨⟩
      exact ⟨.inl ⟨rfl, rfl⟩, rfl⟩
    · rintro ⟨⟨-, rfl⟩ | ⟨-, j, a, none, -⟩, rest⟩
      · cases rest
        rfl
      · cases none
  | cons m ms ih =>
    obtain ⟨s, j⟩ := m
    cases s with
    | none => simp [putAll]
    | some s =>
      by_cases same : name = s
      · subst same
        have found : valuesOf name ((some name, j) :: ms) = j :: valuesOf name ms := by simp [valuesOf]
        rw [found]
        simp only [putAll, put, if_true]
        -- a second value finds the slot filled
        cases slot with
        | some a => simp [Fills, Except.bind]
        | none =>
          cases read : codec.read src j with
          | error e => simp [Fills, Except.bind, Except.map, read]
          | ok a =>
            have later := @ih (some a) slots
            simp [Fills, Except.bind, Except.map, read, later]
      · have passed : valuesOf name ((some s, j) :: ms) = valuesOf name ms := by simp [valuesOf, Ne.symm same]
        rw [passed]
        simp only [putAll, put, if_neg same]
        cases read : put src s j rest slots with
        | error e => simp [Except.bind, Except.map, read, putAll, Ne.symm same]
        | ok filled => simp [Except.bind, Except.map, read, ih, putAll, Ne.symm same]

theorem readMembers_eq_ok {ts : List Type} {schema : Schema ts} {vs : Values ts} :
    schema.readMembers src ms = .ok vs ↔ schema.Holds src ms vs := by
  induction schema generalizing ms with
  | nil =>
    have all : putAll src .nil ms () = .ok () ↔ Named ms := by
      induction ms with
      | nil => simp [putAll, Named]
      | cons m ms ih =>
        obtain ⟨s, j⟩ := m
        cases s with
        | none => simp [putAll, Named]
        | some s => simpa [putAll, put, Except.bind, Named] using ih
    refine (Except.bind_eq_ok.trans ?_).trans all
    exact ⟨fun ⟨_, read, _⟩ => read, fun read => ⟨(), read, rfl⟩⟩
  | field name codec fallback rest ih =>
    obtain ⟨a, vs⟩ := vs
    have later := (@ih (ms.filter fun m => m.1 != some name) vs).symm.trans Except.bind_eq_ok
    rw [Holds, later]
    refine Except.bind_eq_ok.trans ?_
    constructor
    · rintro ⟨⟨slot, slots⟩, read, closed⟩
      obtain ⟨filled, others⟩ := putAll_field_eq_ok.mp read
      simp only [close] at closed
      split at closed
      · cases closed
      · rename_i b given
        obtain ⟨later, rest, same⟩ := Except.map_eq_ok.mp closed
        cases same
        refine ⟨?_, slots, others, rest⟩
        rcases filled with ⟨absent, rfl⟩ | ⟨-, j, b, one, first, rfl⟩
        · exact .inl ⟨absent, given⟩
        · cases given
          exact .inr ⟨j, one, first⟩
    · rintro ⟨first, slots, others, closed⟩
      rcases first with ⟨absent, given⟩ | ⟨j, one, first⟩
      · refine ⟨(none, slots), putAll_field_eq_ok.mpr ⟨.inl ⟨absent, rfl⟩, others⟩, ?_⟩
        simp only [close, Option.none_or, given, closed]
        rfl
      · refine ⟨(some a, slots), putAll_field_eq_ok.mpr ⟨.inr ⟨rfl, j, a, one, first, rfl⟩, others⟩, ?_⟩
        simp only [close, Option.some_or, closed]
        rfl

def Follows (src src' : Source) (R : Option String → Json → Json → Prop) :
    {ts : List Type} → Schema ts → Prop
  | _, .nil => True
  | _, .field name codec _ rest => codec.Follows src src' (R (some name)) ∧ rest.Follows src src' R

theorem Holds.follow {ts : List Type} {schema : Schema ts} {vs : Values ts} (holds : schema.Holds src ms vs)
    (follows : schema.Follows src src' R) (shuffled : Shuffled R ms ms') : schema.Holds src' ms' vs := by
  induction schema generalizing ms ms' with
  | nil => exact shuffled.named holds
  | field name codec fallback rest ih =>
    obtain ⟨a, vs⟩ := vs
    obtain ⟨first, others⟩ := holds
    obtain ⟨reads, later⟩ := follows
    refine ⟨?_, ih others later (shuffled.filter (· != some name))⟩
    rcases first with ⟨absent, left⟩ | ⟨j, one, read⟩
    · exact .inl ⟨shuffled.valuesOf_nil absent, left⟩
    · obtain ⟨j', one', related⟩ := shuffled.valuesOf_one one
      exact .inr ⟨j', one', reads j j' a related read⟩

theorem Holds.reordered {ts : List Type} {schema : Schema ts} {vs : Values ts} {n : Nat} {j' : Json}
    (holds : schema.Holds src ms vs) (follows : schema.Follows src src' R) (reordered : Reordered n (.object ms) j')
    (each : ∀ s k k', (∀ t, s = some t → k ∈ valuesOf t ms ∧ k' ∈ j'.named t) → Reordered (n - 1) k k' → R s k k') :
    ∃ ms', j' = .object ms' ∧ schema.Holds src' ms' vs := by
  obtain ⟨ms', rfl, shuffled⟩ := reordered.object
  refine ⟨ms', rfl, holds.follow follows (shuffled.imp ?_)⟩
  intro s k k' member member' related
  refine each s k k' ?_ related
  rintro t rfl
  exact ⟨mem_valuesOf.mpr member, mem_valuesOf.mpr member'⟩

end Schema

namespace Codec

variable {α β : Type} {c : Codec α} {n : Nat}

theorem follows_of_eq (same : c.read src = c.read src') : c.Follows src src' Eq := by
  rintro j _ a rfl read
  rw [← same, read]

theorem Follows.refine {R : Json → Json → Prop} {view : β → α} {check : α → Except Fault β}
    (follows : c.Follows src src' R) : (c.refine view check).Follows src src' R := by
  intro j j' b related read
  obtain ⟨a, first, checked⟩ := Except.bind_eq_ok.mp read
  exact Except.bind_eq_ok.mpr ⟨a, follows j j' a related first, checked⟩

def Flat (c : Codec α) : Prop := ∀ src ms a, c.read src (.object ms) ≠ .ok a

theorem Flat.refine {view : β → α} {check : α → Except Fault β} (flat : c.Flat) : (c.refine view check).Flat := by
  intro src ms b read
  obtain ⟨a, first, -⟩ := Except.bind_eq_ok.mp read
  exact flat src ms a first

theorem Flat.follows (flat : c.Flat) (follows : c.Follows src src' Eq) : c.Follows src src' (Reordered n) := by
  intro j j' a reordered read
  refine follows j j' a (reordered.eq_of_flat ?_).symm read
  rintro ms rfl
  exact flat src ms a read

theorem text_flat : text.Flat := nofun

theorem natural_flat (limit : Nat) (title : String) : (natural limit title).Flat := nofun

theorem list_flat : (list c).Flat := nofun

theorem list_follows (follows : c.Follows src src' Eq) : (list c).Follows src src' Eq := by
  rintro j _ l rfl read
  cases j with
  | array items =>
    simp only [list] at read ⊢
    induction items generalizing l with
    | nil => exact read
    | cons j items ih =>
      obtain ⟨a, first, rest⟩ := Except.bind_eq_ok.mp read
      obtain ⟨t, others, rfl⟩ := Except.map_eq_ok.mp rest
      rw [readItems, follows j j a rfl first]
      exact Except.map_eq_ok.mpr ⟨t, ih t others, rfl⟩
  | null | bool | number | string | object => cases read

def entry (p : String × String) : Option String × Json := (some p.1, Json.text p.2)

theorem entry_injective : Function.Injective entry := by
  rintro ⟨s, t⟩ ⟨s', t'⟩ same
  cases same
  rfl

theorem readEntries_eq_ok {done made : Catalog (Prod.fst : String × String → String)} :
    readEntries src done ms = .ok made ↔
      ∃ l : List (String × String), ms = l.map entry ∧ l.foldl Catalog.insert done = made := by
  constructor
  · intro read
    induction ms generalizing done with
    | nil =>
      cases read
      exact ⟨[], rfl, rfl⟩
    | cons m ms ih =>
      obtain ⟨_ | s, j⟩ := m
      · cases read
      · obtain ⟨t, first, rest⟩ := Except.bind_eq_ok.mp read
        obtain ⟨l, rfl, rfl⟩ := ih rest
        obtain rfl : j = Json.text t := by
          cases j with
          | string u =>
            cases u with
            | none => cases first
            | some u =>
              cases first
              rfl
          | null | bool | number | array | object => cases first
        exact ⟨(s, t) :: l, rfl, rfl⟩
  · rintro ⟨l, rfl, rfl⟩
    exact readEntries_write src l done

/-- Of the texts of one name the last counts, so that only their order is seen. -/
theorem dictionary_follows : dictionary.Follows src src' (Reordered 0) := by
  intro j j' made reordered read
  cases j with
  | null | bool | number | string | array => cases read
  | object ms =>
    cases j' with
    | null | bool | number | string | array => cases reordered
    | object ms' =>
      obtain ⟨l, rfl, rfl⟩ := readEntries_eq_ok.mp read
      obtain ⟨l', rfl, -⟩ : ∃ l' : List (String × String), ms' = l'.map entry ∧ l'.Perm l :=
        (congrFun₂ (List.eq_map_comp_perm entry) ms' l).mpr (perm_of_kept reordered).symm
      refine readEntries_eq_ok.mpr ⟨l', rfl, Catalog.ext_find? fun s => ?_⟩
      have kept := reordered (some s)
      simp only [List.filter_map] at kept
      have kept := List.map_injective_iff.mpr entry_injective kept
      rw [Catalog.find?_foldl_insert_last, Catalog.find?_foldl_insert_last]
      simpa [entry, Function.comp_def] using congrArg List.getLast? kept.symm

end Codec

theorem Schema.readItems_follow {ts : List Type} {schema : Schema ts} {vs : Values ts} {expected : String}
    {length i : Nat} {items : List Json} (follows : schema.Follows src src' fun _ => Eq)
    (read : schema.readItems src expected length i items = .ok vs) :
    schema.readItems src' expected length i items = .ok vs := by
  induction schema generalizing i items with
  | nil =>
    cases items with
    | nil => exact read
    | cons => cases read
  | field name codec fallback rest ih =>
    cases items with
    | nil =>
      cases fallback with
      | none => cases read
      | some a =>
        obtain ⟨others, later, same⟩ := Except.map_eq_ok.mp read
        exact Except.map_eq_ok.mpr ⟨others, ih follows.2 later, same⟩
    | cons j items =>
      obtain ⟨a, first, more⟩ := Except.bind_eq_ok.mp read
      obtain ⟨others, later, same⟩ := Except.map_eq_ok.mp more
      refine Except.bind_eq_ok.mpr ⟨a, follows.1 j j a rfl first, ?_⟩
      exact Except.map_eq_ok.mpr ⟨others, ih follows.2 later, same⟩

theorem Schema.codec_follows {α : Type} {ts : List Type} {title : String} {schema : Schema ts}
    {view : α → Values ts} {make : Values ts → α} (follows : schema.Follows src src' fun _ => Eq) :
    (schema.codec title view make).Follows src src' Eq := by
  rintro j _ a rfl read
  obtain ⟨vs, values, made⟩ := Except.map_eq_ok.mp read
  refine Except.map_eq_ok.mpr ⟨vs, ?_, made⟩
  cases j with
  | object ms =>
    have holds := Schema.readMembers_eq_ok.mp values
    exact Schema.readMembers_eq_ok.mpr (holds.follow follows (.of_perm (.refl ms) fun _ _ => rfl))
  | array items => exact Schema.readItems_follow follows values
  | null | bool | number | string => cases values

/-- What a record is read from one document it is read from another, if each codec follows on the values under its
name. -/
theorem Schema.codec_read_follow {α : Type} {ts : List Type} {title : String} {schema : Schema ts}
    {view : α → Values ts} {make : Values ts → α} {a : α} {n : Nat} {j j' : Json}
    (follows : schema.Follows src src R) (reordered : Reordered n j j')
    (each : ∀ s k k', (∀ t, s = some t → k ∈ j.named t ∧ k' ∈ j'.named t) → Reordered (n - 1) k k' → R s k k')
    (read : (schema.codec title view make).read src j = .ok a) :
    (schema.codec title view make).read src j' = .ok a := by
  obtain rfl | ⟨ms, _, rfl, rfl, -⟩ := reordered.eq_or_object
  · exact read
  obtain ⟨vs, values, made⟩ := Except.map_eq_ok.mp read
  obtain ⟨ms', ⟨⟩, holds⟩ := (Schema.readMembers_eq_ok.mp values).reordered follows reordered each
  exact Except.map_eq_ok.mpr ⟨vs, Schema.readMembers_eq_ok.mpr holds, made⟩

end Custody.Json
