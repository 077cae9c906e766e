import Custody.Json.Schema
import Custody.Proofs.Json.Codec

/-!
Records that are read back as they are written. Each member finds the slot of its field still blank, because
no two fields share a name.
-/

namespace Custody.Json.Schema

def names : {ts : List Type} → Schema ts → List String
  | _, .nil => []
  | _, .field name _ _ rest => name :: rest.names

def Faithful : {ts : List Type} → Schema ts → Values ts → Prop
  | _, .nil, () => True
  | _, .field _ codec _ rest, (a, vs) => codec.Faithful a ∧ rest.Faithful vs

theorem plain_members {ts : List Type} {schema : Schema ts} {vs : Values ts} (h : schema.Faithful vs) :
    ∀ m ∈ schema.members vs, m.2.Plain := by
  induction schema with
  | nil => nofun
  | field name codec fallback rest ih =>
    obtain ⟨a, vs⟩ := vs
    intro m member
    rcases List.mem_cons.mp member with rfl | member
    · exact h.1.plain
    · exact ih h.2 m member

theorem names_members {ts : List Type} (schema : Schema ts) (vs : Values ts) :
    (schema.members vs).map Prod.fst = schema.names := by
  induction schema with
  | nil => rfl
  | field name codec fallback rest ih =>
    obtain ⟨a, vs⟩ := vs
    exact congrArg (name :: ·) (ih vs)

theorem putAll_field {α : Type} {ts : List Type} {name : String} {codec : Codec α} {fallback : Option α}
    {rest : Schema ts} {src : Source} {members : List (String × Json)}
    (other : name ∉ members.map Prod.fst) (slot : Option α) (slots : Slots ts) :
    putAll src (.field name codec fallback rest) (members.map fun m => (some m.1, m.2)) (slot, slots) =
      (putAll src rest (members.map fun m => (some m.1, m.2)) slots).map fun filled => (slot, filled) := by
  induction members generalizing slots with
  | nil => rfl
  | cons m members ih =>
    obtain ⟨differ, others⟩ := not_or.mp (mt List.mem_cons.mpr other)
    have passed : put src m.1 m.2 (.field name codec fallback rest) (slot, slots) =
        (put src m.1 m.2 rest slots).map fun filled => (slot, filled) := if_neg differ
    simp only [List.map_cons, putAll, passed]
    cases put src m.1 m.2 rest slots with
    | error e => rfl
    | ok filled => exact ih others filled

theorem readMembers_members {ts : List Type} {schema : Schema ts} {vs : Values ts}
    (distinct : schema.names.Nodup) (h : schema.Faithful vs) (src : Source) :
    schema.readMembers src ((schema.members vs).map fun m => (some m.1, m.2)) = .ok vs := by
  induction schema with
  | nil => rfl
  | field name codec fallback rest ih =>
    obtain ⟨a, vs⟩ := vs
    obtain ⟨fresh, others⟩ := List.nodup_cons.mp distinct
    obtain ⟨filled, put, close⟩ := Except.bind_eq_ok.mp (ih others h.2)
    have first : Schema.put src name (codec.write a) (.field name codec fallback rest) (none, rest.blank) =
        .ok (some a, rest.blank) := by
      simp only [Schema.put, if_true, h.1.read]
      rfl
    have unnamed : name ∉ (rest.members vs).map Prod.fst := by rwa [names_members]
    have tail := @putAll_field _ _ _ codec fallback rest src _ unnamed (some a) rest.blank
    rw [put] at tail
    simp only [readMembers, members, List.map_cons, putAll, blank, first]
    change (putAll src (.field name codec fallback rest) _ (some a, rest.blank)).bind _ = _
    rw [tail]
    simp only [Except.map, Except.bind, Schema.close, Option.some_or, close]

theorem codec_faithful {α : Type} {ts : List Type} (title : String) {schema : Schema ts}
    {view : α → Values ts} {make : Values ts → α} {a : α} (distinct : schema.names.Nodup)
    (h : schema.Faithful (view a)) (back : make (view a) = a) :
    (schema.codec title view make).Faithful a where
  plain := .record (plain_members h)
  read src := by
    change (schema.readMembers src _).map make = _
    rw [readMembers_members distinct h]
    exact congrArg Except.ok back

def Stable : {ts : List Type} → Schema ts → Prop
  | _, .nil => True
  | _, .field _ codec fallback rest =>
    codec.Stable ∧ (∀ a, fallback = some a → codec.Faithful a) ∧ rest.Stable

/-- What has been read into the slots is kept faithfully. -/
def Filled : {ts : List Type} → Schema ts → Slots ts → Prop
  | _, .nil, () => True
  | _, .field _ codec _ rest, (slot, slots) => (∀ a, slot = some a → codec.Faithful a) ∧ rest.Filled slots

theorem filled_blank {ts : List Type} (schema : Schema ts) : schema.Filled schema.blank := by
  induction schema with
  | nil => trivial
  | field name codec fallback rest ih => exact ⟨nofun, ih⟩

theorem filled_put {ts : List Type} {schema : Schema ts} (stable : schema.Stable) {src : Source}
    {s : String} {j : Json} {slots filled : Slots ts} (before : schema.Filled slots)
    (read : put src s j schema slots = .ok filled) : schema.Filled filled := by
  induction schema with
  | nil => trivial
  | field name codec fallback rest ih =>
    obtain ⟨slot, slots⟩ := slots
    simp only [put] at read
    split at read
    · cases slot with
      | some a => cases read
      | none =>
        obtain ⟨a, first, rfl⟩ := Except.map_eq_ok.mp read
        refine ⟨fun b same => ?_, before.2⟩
        cases same
        exact stable.1 src j a first
    · obtain ⟨others, later, rfl⟩ := Except.map_eq_ok.mp read
      exact ⟨before.1, ih stable.2.2 before.2 later⟩

theorem filled_putAll {ts : List Type} {schema : Schema ts} (stable : schema.Stable) {src : Source}
    {members : List (Option String × Json)} {slots filled : Slots ts} (before : schema.Filled slots)
    (read : schema.putAll src members slots = .ok filled) : schema.Filled filled := by
  induction members generalizing slots with
  | nil =>
    cases read
    exact before
  | cons m members ih =>
    obtain ⟨name, j⟩ := m
    cases name with
    | none => cases read
    | some s =>
      obtain ⟨next, first, rest⟩ := Except.bind_eq_ok.mp read
      exact ih (filled_put stable before first) rest

theorem faithful_close {ts : List Type} {schema : Schema ts} (stable : schema.Stable) {slots : Slots ts}
    {vs : Values ts} (filled : schema.Filled slots) (read : schema.close slots = .ok vs) :
    schema.Faithful vs := by
  induction schema with
  | nil => trivial
  | field name codec fallback rest ih =>
    obtain ⟨slot, slots⟩ := slots
    simp only [close] at read
    split at read
    · cases read
    · rename_i a given
      obtain ⟨others, later, rfl⟩ := Except.map_eq_ok.mp read
      refine ⟨?_, ih stable.2.2 filled.2 later⟩
      cases slot with
      | some b => exact filled.1 a given
      | none => exact stable.2.1 a given

theorem faithful_readItems {ts : List Type} {schema : Schema ts} (stable : schema.Stable) {src : Source}
    {expected : String} {length i : Nat} {items : List Json} {vs : Values ts}
    (read : schema.readItems src expected length i items = .ok vs) : schema.Faithful vs := by
  induction schema generalizing i items with
  | nil => trivial
  | field name codec fallback rest ih =>
    cases items with
    | nil =>
      cases fallback with
      | none => cases read
      | some a =>
        obtain ⟨others, later, rfl⟩ := Except.map_eq_ok.mp read
        exact ⟨stable.2.1 a rfl, ih stable.2.2 later⟩
    | cons j items =>
      obtain ⟨a, first, more⟩ := Except.bind_eq_ok.mp read
      obtain ⟨others, later, rfl⟩ := Except.map_eq_ok.mp more
      exact ⟨stable.1 src j a first, ih stable.2.2 later⟩

theorem faithful_read {ts : List Type} {schema : Schema ts} (stable : schema.Stable) {title : String}
    {src : Source} {j : Json} {vs : Values ts} (read : schema.read title src j = .ok vs) :
    schema.Faithful vs := by
  cases j with
  | object members =>
    obtain ⟨filled, put, close⟩ := Except.bind_eq_ok.mp read
    exact faithful_close stable (filled_putAll stable schema.filled_blank put) close
  | array items => exact faithful_readItems stable read
  | null | bool | number | string => cases read

/-- What a record is read from may be in another order or a mere list; what is read is kept faithfully. -/
theorem codec_stable {α : Type} {ts : List Type} {title : String} {schema : Schema ts}
    {view : α → Values ts} {make : Values ts → α} (distinct : schema.names.Nodup) (stable : schema.Stable)
    (back : ∀ vs, view (make vs) = vs) : (schema.codec title view make).Stable := by
  intro src j a read
  obtain ⟨vs, values, rfl⟩ := Except.map_eq_ok.mp read
  have h := faithful_read stable values
  refine codec_faithful title distinct ?_ (by rw [back])
  rwa [back]

end Custody.Json.Schema
