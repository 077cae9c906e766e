import Custody.Proofs.Json.Unordered

/-!
Where the content of a choice stands. It is read in its place or put aside until the tag is known; either way the tag
names the alternative, and the content is read as the fields of that alternative.
-/

namespace Custody.Json

variable {R : Option String → Json → Json → Prop} {ms ms' : List (Option String × Json)} {src src' : Source}

theorem readName_object {names : List String} {ms : List (Option String × Json)} {s : String}
    (read : readName src names (.object ms) = .ok s) :
    s ∈ names ∧ ∃ v, ms = [(some s, v)] ∧ isUnit src v = true := by
  have pick {u : String} {f : String → Except Fault String}
      (read : (if u ∈ names then Except.ok u else .error (.unknownVariant u names)).bind f = .ok s) :
      u ∈ names ∧ f u = .ok s := by
    split at read
    · rename_i known
      exact ⟨known, read⟩
    · cases read
  unfold readName at read
  split at read
  · rename_i found
    cases found
  · rename_i found
    cases found
    split at read
    · cases read
    · cases read
    · obtain ⟨known, rest⟩ := pick read
      split_ifs at rest with unit alone
      cases rest
      obtain rfl := not_ne_iff.mp alone
      exact ⟨known, _, rfl, by simpa using unit⟩
    · obtain ⟨known, rest⟩ := pick read
      split_ifs at rest with unit
      cases rest
      exact ⟨known, _, rfl, unit⟩
    · cases read
  · rename_i other
    exact absurd rfl (other _)

theorem readName_eq_ok {names : List String} {j : Json} {s : String} :
    readName src names j = .ok s ↔
      s ∈ names ∧ (j = Json.text s ∨ ∃ v, j = .object [(some s, v)] ∧ isUnit src v = true) := by
  constructor
  · intro read
    cases j with
    | string u =>
      cases u with
      | none => cases src <;> cases read
      | some u =>
        unfold readName at read
        simp only at read
        split at read
        · rename_i known
          cases read
          exact ⟨known, .inl rfl⟩
        · cases read
    | object ms =>
      obtain ⟨known, v, rfl, unit⟩ := readName_object read
      exact ⟨known, .inr ⟨v, rfl, unit⟩⟩
    | null | bool | number | array => cases src <;> cases read
  · rintro ⟨known, rfl | ⟨v, rfl, unit⟩⟩
    · exact if_pos known
    · cases src <;> simp [readName, known, unit, Except.bind]

/-- A name stands alone before an empty object, which counts as nothing in a part put aside, and nowhere else. -/
def HoldsEmpty (j : Json) : Prop := ∃ s, j = .object [(s, .object [])]

theorem readName_follow {names : List String} {s : String} {n : Nat} {j j' : Json} (reordered : Reordered n j j')
    (strict : src = .aside → src' = .aside ∨ ¬j'.HoldsEmpty) (read : readName src names j = .ok s) :
    readName src' names j' = .ok s := by
  obtain ⟨known, form⟩ := readName_eq_ok.mp read
  refine readName_eq_ok.mpr ⟨known, ?_⟩
  rcases form with rfl | ⟨v, rfl, unit⟩
  · exact .inl (reordered.eq_of_flat nofun)
  · obtain ⟨ms', rfl, shuffled⟩ := reordered.object
    obtain ⟨v', rfl, related⟩ := shuffled.one
    refine .inr ⟨v', rfl, ?_⟩
    cases v with
    | null =>
      rw [related.eq_of_flat nofun]
      rfl
    | object members =>
      cases members with
      | cons => cases unit
      | nil =>
        obtain ⟨none, rfl, emptied⟩ := related.object
        cases emptied.nil
        have put : src' = .aside := (strict (by simpa [isUnit] using unit)).resolve_right (not_not_intro ⟨_, rfl⟩)
        rw [put]
        rfl
    | bool | number | string | array => cases unit

namespace Variant

variable {α : Type} {v : Variant α} {a : α} {n : Nat} {j j' : Json}

theorem read_fields_eq_ok {ts : List Type} {name title : String} {schema : Schema ts} {make : Values ts → α} :
    (Variant.fields name title schema make).read src j = .ok a ↔
      ∃ ms vs, j = .object ms ∧ schema.Holds src ms vs ∧ make vs = a := by
  constructor
  · intro read
    cases j with
    | object ms =>
      obtain ⟨vs, values, made⟩ := Except.map_eq_ok.mp read
      exact ⟨ms, vs, rfl, Schema.readMembers_eq_ok.mp values, made⟩
    | null | bool | number | string | array => cases read
  · rintro ⟨ms, vs, rfl, holds, made⟩
    exact Except.map_eq_ok.mpr ⟨vs, Schema.readMembers_eq_ok.mpr holds, made⟩

def Follows (src src' : Source) (R : Option String → Json → Json → Prop) : Variant α → Prop
  | .bare _ _ _ => True
  | .fields _ _ schema _ => schema.Follows src src' R

theorem read_follow (follows : v.Follows src src' R) (reordered : Reordered n j j')
    (each : ∀ s k k', (∀ t, s = some t → k ∈ j.named t ∧ k' ∈ j'.named t) → Reordered (n - 1) k k' → R s k k')
    (read : v.read src j = .ok a) : v.read src' j' = .ok a := by
  cases v with
  | bare name title b =>
    cases j with
    | null =>
      rw [reordered.eq_of_flat nofun]
      exact read
    | bool | number | string | array | object => cases read
  | fields name title schema make =>
    obtain ⟨ms, vs, rfl, holds, made⟩ := read_fields_eq_ok.mp read
    obtain ⟨ms', rfl, holds'⟩ := holds.reordered follows reordered each
    exact read_fields_eq_ok.mpr ⟨ms', vs, rfl, holds', made⟩

end Variant

namespace Tagged

variable {α : Type} {t : Tagged α} {a : α}

def parts (t : Tagged α) (ms : List (Option String × Json)) : List (Option String × Json) :=
  ms.filter fun m => m.1 == some t.tag || m.1 == some t.content

theorem relevant_cases (t : Tagged α) (ms : List (Option String × Json)) :
    t.relevant ms = .error .malformed ∧ ¬Named ms ∨
      t.relevant ms = .ok none ∧ Named ms ∧ t.parts ms = [] ∨
      ∃ b j rest, t.relevant ms = .ok (some (b, j, rest)) ∧ (Named ms ↔ Named rest) ∧
        t.parts ms = (some (if b then t.tag else t.content), j) :: t.parts rest := by
  induction ms with
  | nil => exact .inr (.inl ⟨rfl, nofun, rfl⟩)
  | cons m ms ih =>
    obtain ⟨_ | s, j⟩ := m
    · exact .inl ⟨rfl, fun named => nomatch named _ List.mem_cons_self⟩
    · have named : Named ((some s, j) :: ms) ↔ Named ms := by simp [Named]
      by_cases tag : s = t.tag
      · refine .inr (.inr ⟨true, j, ms, ?_, named, ?_⟩)
        · rw [relevant, if_pos tag]
        · simp [parts, tag]
      · by_cases content : s = t.content
        · refine .inr (.inr ⟨false, j, ms, ?_, named, ?_⟩)
          · rw [relevant, if_neg tag, if_pos content]
          · simp [parts, content]
        · have passed : t.parts ((some s, j) :: ms) = t.parts ms := by simp [parts, tag, content]
          rw [relevant, if_neg tag, if_neg content, named, passed]
          exact ih

theorem relevant_eq_none : t.relevant ms = .ok none ↔ Named ms ∧ t.parts ms = [] := by
  rcases t.relevant_cases ms with ⟨found, unnamed⟩ | ⟨found, named, none⟩ | ⟨b, j, rest, found, named, shape⟩
  · simp [found, unnamed]
  · simp [found, named, none]
  · simp [found, shape]

theorem parts_of_relevant {b : Bool} {j : Json} {rest : List (Option String × Json)}
    (found : t.relevant ms = .ok (some (b, j, rest))) :
    (Named ms ↔ Named rest) ∧ t.parts ms = (some (if b then t.tag else t.content), j) :: t.parts rest := by
  rcases t.relevant_cases ms with ⟨other, -⟩ | ⟨other, -⟩ | ⟨b, j, rest, other, shape⟩
  · cases found.symm.trans other
  · cases found.symm.trans other
  · cases found.symm.trans other
    exact shape

theorem relevant_of_parts {s : Option String} {j : Json} {l : List (Option String × Json)}
    (named : Named ms) (shape : t.parts ms = (s, j) :: l) :
    ∃ b rest, t.relevant ms = .ok (some (b, j, rest)) ∧ s = some (if b then t.tag else t.content) ∧
      Named rest ∧ t.parts rest = l := by
  rcases t.relevant_cases ms with ⟨-, unnamed⟩ | ⟨-, -, none⟩ | ⟨b, k, rest, found, iff, parts⟩
  · exact absurd named unnamed
  · cases shape.symm.trans none
  · cases shape.symm.trans parts
    exact ⟨b, rest, found, rfl, iff.mp named, rfl⟩

theorem finish_eq_ok {b : α} : t.finish a ms = .ok b ↔ b = a ∧ Named ms ∧ t.parts ms = [] := by
  rw [← relevant_eq_none, finish, Except.bind_eq_ok]
  constructor
  · rintro ⟨_ | ⟨_ | _, _⟩, found, given⟩
    · cases given
      exact ⟨rfl, found⟩
    · cases given
    · cases given
  · rintro ⟨rfl, found⟩
    exact ⟨none, found, rfl⟩

/-- The ways in which tag and content make a value. -/
inductive Accepts (t : Tagged α) (src : Source) (ms : List (Option String × Json)) (a : α) : Prop where
  | alone {tag : Json} {v : Variant α} (parts : t.parts ms = [(some t.tag, tag)])
      (alternative : (readName src t.names tag).bind t.variant = .ok v) (empty : t.withoutContent v = .ok a)
  | direct {tag content : Json} {v : Variant α}
      (parts : t.parts ms = [(some t.tag, tag), (some t.content, content)])
      (alternative : (readName src t.names tag).bind t.variant = .ok v) (read : v.read src content = .ok a)
  | aside {tag content : Json} {v : Variant α}
      (parts : t.parts ms = [(some t.content, content), (some t.tag, tag)])
      (alternative : (readName src t.names tag).bind t.variant = .ok v) (read : v.read .aside content = .ok a)
      (admitted : src = .text → content.Admitted t.room)

theorem putAside_eq_ok {j k : Json} :
    t.putAside src j = .ok k ↔ j = k ∧ (src = .text → k.Admitted t.room) := by
  unfold putAside
  split
  · rename_i refused
    simp only [reduceCtorEq, false_iff, not_and]
    rintro rfl admitted
    have admitted := admitted refused.1
    simp [admitted.1, admitted.2] at refused
  · rename_i accepted
    rw [Except.ok.injEq]
    refine ⟨fun same => ⟨same, ?_⟩, And.left⟩
    rintro rfl
    simpa [Admitted, same] using accepted

theorem accepts_of_readMembers (read : t.readMembers src ms = .ok a) : Named ms ∧ t.Accepts src ms a := by
  obtain ⟨found, first, next⟩ := Except.bind_eq_ok.mp read
  rcases found with _ | ⟨_ | _, j, rest⟩
  · cases next
  · obtain ⟨named, shape⟩ := parts_of_relevant first
    obtain ⟨content, put, later⟩ := Except.bind_eq_ok.mp next
    obtain ⟨rfl, admitted⟩ := putAside_eq_ok.mp put
    obtain ⟨found, second, last⟩ := Except.bind_eq_ok.mp later
    rcases found with _ | ⟨_ | _, tag, rest⟩
    · cases last
    · cases last
    · obtain ⟨v, alternative, ending⟩ := Except.bind_eq_ok.mp last
      obtain ⟨b, value, finished⟩ := Except.bind_eq_ok.mp ending
      obtain ⟨rfl, all, none⟩ := finish_eq_ok.mp finished
      obtain ⟨named', shape'⟩ := parts_of_relevant second
      rw [shape', none] at shape
      exact ⟨named.mpr (named'.mpr all), .aside shape alternative value admitted⟩
  · obtain ⟨named, shape⟩ := parts_of_relevant first
    obtain ⟨v, alternative, later⟩ := Except.bind_eq_ok.mp next
    obtain ⟨found, second, last⟩ := Except.bind_eq_ok.mp later
    rcases found with _ | ⟨_ | _, content, rest⟩
    · obtain ⟨all, none⟩ := relevant_eq_none.mp second
      rw [none] at shape
      exact ⟨named.mpr all, .alone shape alternative last⟩
    · obtain ⟨b, value, finished⟩ := Except.bind_eq_ok.mp last
      obtain ⟨rfl, all, none⟩ := finish_eq_ok.mp finished
      obtain ⟨named', shape'⟩ := parts_of_relevant second
      rw [shape', none] at shape
      exact ⟨named.mpr (named'.mpr all), .direct shape alternative value⟩
    · cases last

theorem readMembers_of_accepts (apart : t.content ≠ t.tag) (named : Named ms) (accepts : t.Accepts src ms a) :
    t.readMembers src ms = .ok a := by
  have which {b c : Bool} (same : some (if b then t.tag else t.content) = some (if c then t.tag else t.content)) :
      b = c := by
    cases b <;> cases c <;> simp_all [eq_comm]
  cases accepts with
  | @alone tag v shape alternative empty =>
    obtain ⟨b, rest, first, same, all, none⟩ := relevant_of_parts named shape
    obtain rfl : true = b := which same
    refine Except.bind_eq_ok.mpr ⟨_, first, Except.bind_eq_ok.mpr ⟨v, alternative, ?_⟩⟩
    exact Except.bind_eq_ok.mpr ⟨_, relevant_eq_none.mpr ⟨all, none⟩, empty⟩
  | @direct tag content v shape alternative read =>
    obtain ⟨b, rest, first, same, all, others⟩ := relevant_of_parts named shape
    obtain ⟨c, rest', second, same', all', none⟩ := relevant_of_parts all others
    obtain rfl : true = b := which same
    obtain rfl : false = c := which same'
    refine Except.bind_eq_ok.mpr ⟨_, first, Except.bind_eq_ok.mpr ⟨v, alternative, ?_⟩⟩
    refine Except.bind_eq_ok.mpr ⟨_, second, Except.bind_eq_ok.mpr ⟨a, read, ?_⟩⟩
    exact finish_eq_ok.mpr ⟨rfl, all', none⟩
  | @aside tag content v shape alternative read admitted =>
    obtain ⟨b, rest, first, same, all, others⟩ := relevant_of_parts named shape
    obtain ⟨c, rest', second, same', all', none⟩ := relevant_of_parts all others
    obtain rfl : false = b := which same
    obtain rfl : true = c := which same'
    have put : t.putAside src content = .ok content := putAside_eq_ok.mpr ⟨rfl, admitted⟩
    refine Except.bind_eq_ok.mpr ⟨_, first, Except.bind_eq_ok.mpr ⟨content, put, ?_⟩⟩
    refine Except.bind_eq_ok.mpr ⟨_, second, Except.bind_eq_ok.mpr ⟨v, alternative, ?_⟩⟩
    exact Except.bind_eq_ok.mpr ⟨a, read, finish_eq_ok.mpr ⟨rfl, all', none⟩⟩

theorem mem_of_alternative {names : List String} {tag : Json} {v : Variant α}
    (alternative : (readName src names tag).bind t.variant = .ok v) : v ∈ t.variants := by
  obtain ⟨s, -, found⟩ := Except.bind_eq_ok.mp alternative
  unfold variant at found
  split at found
  · rename_i known
    cases found
    exact List.mem_of_find?_eq_some known
  · cases found

theorem alternative_follow {n : Nat} {tag tag' : Json} {v : Variant α} (reordered : Reordered n tag tag')
    (alternative : (readName .text t.names tag).bind t.variant = .ok v) :
    (readName .text t.names tag').bind t.variant = .ok v := by
  obtain ⟨s, named, found⟩ := Except.bind_eq_ok.mp alternative
  refine Except.bind_eq_ok.mpr ⟨s, readName_follow reordered ?_ named, found⟩
  nofun

def TagFirst (t : Tagged α) : Json → Prop
  | .object ms => ∀ m ∈ (t.parts ms).head?, m.1 = some t.tag
  | _ => True

/-- In another order the same is read, if the content can be put aside where it comes before the tag, and if each
alternative reads the same from a content in its new place. -/
theorem read_follow {n : Nat} {j j' : Json} (apart : t.content ≠ t.tag) (reordered : Reordered (n + 1) j j')
    (put : t.TagFirst j' ∨ j'.Admitted (t.room + 1))
    (contents : ∀ v ∈ t.variants, ∀ src src' k k', (src = .aside → src' = .aside ∨ t.TagFirst j') →
      k' ∈ j'.named t.content → Reordered n k k' → v.read src k = .ok a → v.read src' k' = .ok a)
    (read : t.read .text j = .ok a) : t.read .text j' = .ok a := by
  obtain rfl | ⟨ms, ms', rfl, rfl, shuffled⟩ := reordered.eq_or_object
  · exact read
  obtain ⟨named, accepts⟩ := accepts_of_readMembers read
  refine readMembers_of_accepts apart (shuffled.named named) ?_
  have same : Shuffled _ (t.parts ms) (t.parts ms') := shuffled.filter fun s => s == some t.tag || s == some t.content
  have inside {k : Json} (member : (some t.content, k) ∈ t.parts ms') : (some t.content, k) ∈ ms' :=
    (List.mem_filter.mp member).1
  have admitted {k : Json} {l : List (Option String × Json)} (shape : t.parts ms' = (some t.content, k) :: l) :
      k.Admitted t.room := by
    have member := inside (shape ▸ List.mem_cons_self)
    rcases put with first | admitted
    · exact absurd (Option.some.inj (first (some t.content, k) (by simp [shape]))) apart
    · exact ((admitted_object.mp admitted).2 _ member).2
  have first {k : Json} {l : List (Option String × Json)} (shape : t.parts ms' = (some t.tag, k) :: l) :
      t.TagFirst (.object ms') := by
    intro m head
    rw [shape] at head
    cases head
    rfl
  -- tag and content keep their places or change them, and then the content is read from the other source
  cases accepts with
  | alone shape alternative empty =>
    rw [shape] at same
    obtain ⟨tag', shape', tags⟩ := same.one
    exact .alone shape' (alternative_follow tags alternative) empty
  | direct shape alternative value =>
    have known := mem_of_alternative alternative
    rw [shape] at same
    obtain ⟨tag', content', tags, related, shape' | shape'⟩ := same.two
    · have member := mem_valuesOf.mpr (inside (k := content') (by simp [shape']))
      have value' := contents _ known .text .text _ _ nofun member related value
      exact .direct shape' (alternative_follow tags alternative) value'
    · have member := mem_valuesOf.mpr (inside (k := content') (by simp [shape']))
      have value' := contents _ known .text .aside _ _ nofun member related value
      exact .aside shape' (alternative_follow tags alternative) value' fun _ => admitted shape'
  | aside shape alternative value =>
    have known := mem_of_alternative alternative
    rw [shape] at same
    obtain ⟨content', tag', related, tags, shape' | shape'⟩ := same.two
    · have member := mem_valuesOf.mpr (inside (k := content') (by simp [shape']))
      have value' := contents _ known .aside .aside _ _ (fun _ => .inl rfl) member related value
      exact .aside shape' (alternative_follow tags alternative) value' fun _ => admitted shape'
    · have member := mem_valuesOf.mpr (inside (k := content') (by simp [shape']))
      have value' := contents _ known .aside .text _ _ (fun _ => .inr (first shape')) member related value
      exact .direct shape' (alternative_follow tags alternative) value'

end Tagged

end Custody.Json
