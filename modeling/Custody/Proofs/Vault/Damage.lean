import Custody.Proofs.Vault.Reopening

/-!
Damaged entries. An entry whose sealed text is no seal under its own name harms nothing but itself: its material
cannot be had until something else is stored under the name, and in all else the vault answers as one would in
which a whole entry stands in its place.
-/

namespace Custody

namespace Entry

/-- The sealed text is the seal of this material, under the entry's nonce and bound to a name. -/
def Encloses (key : SecretKey) (id : KeyId) (e : Entry) (material : Bytes) : Prop :=
  Sealing.Seals key e.nonce id.bytes material e.sealedText

/-- The sealed text is no seal of anything under the entry's own name. -/
def Damaged (key : SecretKey) (e : Entry) : Prop := ∀ material, ¬Encloses key e.id e material

/-- A whole entry in the place of another: of the same name, labels and time, and the very same unless the other
is damaged. -/
structure StandsFor (key : SecretKey) (whole e : Entry) : Prop where
  summary : whole.summary = e.summary
  undamaged : ¬whole.Damaged key
  same : ¬e.Damaged key → whole = e

variable {key : SecretKey} {e : Entry}

theorem damaged_of_short (short : e.sealedText.length < Sealing.tagLength) : e.Damaged key :=
  fun material encloses => Sealing.ne_sealText_of_short short key e.nonce e.id.bytes material encloses.made

theorem StandsFor.self {material : Bytes} (encloses : Encloses key e.id e material) : StandsFor key e e :=
  ⟨rfl, fun damaged => damaged material encloses, fun _ => rfl⟩

def mended (key : SecretKey) (e : Entry) : Entry :=
  match Secret.decrypt key.val e.nonce e.id.bytes e.sealedText with
  | .ok _ => e
  | .error _ => { e with sealedText := Sealing.sealText key e.nonce e.id.bytes [0] }

theorem id_mended (key : SecretKey) (e : Entry) : (e.mended key).id = e.id := by
  unfold mended
  split <;> rfl

theorem mended_standsFor (key : SecretKey) (e : Entry) : StandsFor key (e.mended key) e := by
  unfold mended
  split
  · rename_i material opened
    exact .self (Secret.decrypt_eq_ok_iff.mp opened)
  · rename_i refused
    refine ⟨rfl, fun damaged => damaged [0] ⟨by decide, rfl⟩, fun whole => ?_⟩
    obtain ⟨material, encloses⟩ := not_forall_not.mp whole
    cases refused.symm.trans (Secret.decrypt_eq_ok_iff.mpr encloses)

end Entry

namespace Vault

variable {v w : Vault} {id : KeyId} {e : Entry}

def Damaged (v : Vault) (id : KeyId) : Prop := ∃ e, v.store.get? id = some e ∧ e.Damaged v.entryKey

theorem get_of_absent (absent : v.store.get? id = none) :
    v.get id = .error (.notFound ("Key not found: " ++ id.text)) := by
  rw [get, absent]

theorem get_of_encloses {material : Bytes} (found : v.store.get? id = some e)
    (encloses : Entry.Encloses v.entryKey id e material) : v.get id = .ok material := by
  rw [get, found]
  simp only [Secret.decrypt_eq_ok_iff.mpr encloses, Except.mapError]

theorem get_of_damaged (found : v.store.get? id = some e) (damaged : e.Damaged v.entryKey) :
    v.get id = .error (.internal s!"Record '{id.text}' is corrupted") := by
  have refused := Secret.decrypt_eq_authentication_iff.mpr damaged
  rw [Store.id_of_get? found] at refused
  rw [get, found]
  simp only [refused, Except.mapError]

inductive Fetched (v : Vault) (id : KeyId) : Except Failure Bytes → Prop where
  | absent (absent : v.store.get? id = none) : Fetched v id (.error (.notFound ("Key not found: " ++ id.text)))
  | whole {e : Entry} {material : Bytes} (found : v.store.get? id = some e) (named : e.id = id)
      (encloses : Entry.Encloses v.entryKey id e material) : Fetched v id (.ok material)
  | damaged (damaged : v.Damaged id) : Fetched v id (.error (.internal s!"Record '{id.text}' is corrupted"))

theorem get_fetched (v : Vault) (id : KeyId) : Fetched v id (v.get id) := by
  cases found : v.store.get? id with
  | none =>
    rw [get_of_absent found]
    exact .absent found
  | some e =>
    have named := Store.id_of_get? found
    by_cases damaged : e.Damaged v.entryKey
    · rw [get_of_damaged found damaged]
      exact .damaged ⟨e, found, damaged⟩
    · obtain ⟨material, encloses⟩ := not_forall_not.mp damaged
      rw [named] at encloses
      rw [get_of_encloses found encloses]
      exact .whole found named encloses

/-- What is told of a name when its material is asked for; there is no other failure. -/
structure Tells (v : Vault) (id : KeyId) : Prop where
  absent : (∃ what, v.get id = .error (.notFound what)) ↔ v.store.get? id = none
  whole : ∀ material, v.get id = .ok material ↔
    ∃ e, v.store.get? id = some e ∧ e.id = id ∧ Entry.Encloses v.entryKey id e material
  failed : ∀ f, v.get id = .error f ↔
    v.store.get? id = none ∧ f = .notFound ("Key not found: " ++ id.text) ∨
      v.Damaged id ∧ f = .internal s!"Record '{id.text}' is corrupted"

theorem tells (v : Vault) (id : KeyId) : v.Tells id where
  absent := by
    constructor
    · rintro ⟨what, told⟩
      have fetched := get_fetched v id
      rw [told] at fetched
      cases fetched with
      | absent absent => exact absent
    · exact fun absent => ⟨_, get_of_absent absent⟩
  whole material := by
    constructor
    · intro told
      have fetched := get_fetched v id
      rw [told] at fetched
      cases fetched with
      | whole found named encloses => exact ⟨_, found, named, encloses⟩
    · rintro ⟨e, found, -, encloses⟩
      exact get_of_encloses found encloses
  failed f := by
    constructor
    · intro told
      have fetched := get_fetched v id
      rw [told] at fetched
      cases fetched with
      | absent absent => exact .inl ⟨absent, rfl⟩
      | damaged damaged => exact .inr ⟨damaged, rfl⟩
    · rintro (⟨absent, rfl⟩ | ⟨⟨e, found, damaged⟩, rfl⟩)
      · exact get_of_absent absent
      · exact get_of_damaged found damaged

theorem get_keep (v : Vault) (id : KeyId) {material : Bytes} (fits : material.length < Sealing.capacity)
    (metadata : Metadata) (draw : Draw) :
    (v.keep (v.entryOf id material metadata draw)).get id = .ok material := by
  refine get_of_encloses (e := v.entryOf id material metadata draw) ?_ ⟨fits, rfl⟩
  rw [get?_keep, id_entryOf, if_pos rfl]

/-- A vault like another, in which whole entries stand for all of its entries. -/
structure Mends (w v : Vault) : Prop where
  keyring : w.keyring = v.keyring
  entryKey : w.entryKey = v.entryKey
  entries : ∀ id, Option.Rel (Entry.StandsFor v.entryKey) (w.store.get? id) (v.store.get? id)

def mended (v : Vault) : Vault :=
  { v with
    store := ⟨v.store.toList.map (Entry.mended v.entryKey), List.pairwise_map.mpr <| by
      simpa only [Entry.id_mended] using v.store.sorted⟩ }

theorem get?_mended (v : Vault) (id : KeyId) :
    v.mended.store.get? id = (v.store.get? id).map (Entry.mended v.entryKey) := by
  simp only [Store.get?, Catalog.find?, mended, List.find?_map]
  -- No entry changes its name, so the search stops at the same place.
  congr 2
  funext e
  simp only [Function.comp_apply, Entry.id_mended]

theorem mended_mends (v : Vault) : v.mended.Mends v := by
  refine ⟨rfl, rfl, fun id => ?_⟩
  rw [get?_mended]
  cases v.store.get? id with
  | none => exact .none
  | some e => exact .some (Entry.mended_standsFor v.entryKey e)

namespace Mends

variable (mends : w.Mends v)

include mends

theorem isSome_get? (id : KeyId) : (w.store.get? id).isSome = (v.store.get? id).isSome :=
  (mends.entries id).isSome_eq

theorem store {s t : Store} (entries : ∀ id, Option.Rel (Entry.StandsFor v.entryKey) (s.get? id) (t.get? id)) :
    Mends { w with store := s } { v with store := t } := ⟨mends.keyring, mends.entryKey, entries⟩

theorem keep (id : KeyId) {material : Bytes} (fits : material.length < Sealing.capacity) (metadata : Metadata)
    (draw : Draw) :
    (w.keep (w.entryOf id material metadata draw)).Mends (v.keep (v.entryOf id material metadata draw)) := by
  -- Both seal with the same key, so the same entry is stored, and it is whole.
  have same : w.entryOf id material metadata draw = v.entryOf id material metadata draw := by
    rw [entryOf, entryOf, mends.entryKey]
  rw [same]
  refine mends.store fun other => ?_
  rw [Store.get?_insert, Store.get?_insert]
  split
  · exact .some (Entry.StandsFor.self ⟨fits, rfl⟩)
  · exact mends.entries other

theorem erase (name : KeyId) :
    Mends { w with store := w.store.erase name.text } { v with store := v.store.erase name.text } := by
  refine mends.store fun id => ?_
  rw [Store.get?_erase, Store.get?_erase]
  split
  · exact .none
  · exact mends.entries id

theorem get (undamaged : ¬v.Damaged id) : w.get id = v.get id := by
  have same : w.store.get? id = v.store.get? id := by
    have related := mends.entries id
    unfold Vault.Damaged at undamaged
    generalize w.store.get? id = whole at related
    generalize v.store.get? id = e at related undamaged
    cases related with
    | none => rfl
    | some stands => rw [stands.same fun damaged => undamaged ⟨_, rfl, damaged⟩]
  rw [Vault.get, Vault.get, same, mends.entryKey]

theorem ids : w.store.ids = v.store.ids := Store.ids_congr mends.isSome_get?

theorem count : w.count = v.count := by
  have lengths := congrArg List.length mends.ids
  rwa [Store.length_ids, Store.length_ids] at lengths

theorem list : w.list = v.list := by
  rw [list_eq, list_eq, mends.ids]
  exact List.filterMap_congr fun id _ => (mends.entries id).map_eq fun _ _ stands => stands.summary

theorem apply (op : Operation) : (w.apply op).2.Mends (v.apply op).2 ∧
    ((∀ id, op = .get id → ¬v.Damaged id) → (w.apply op).1 = (v.apply op).1) := by
  cases op with
  | put id material metadata draw =>
    cases refused : refusal? material with
    | some e =>
      simp only [apply_put, refused, implies_true, and_true]
      exact mends
    | none =>
      simp only [apply_put, refused, contains_eq, mends.isSome_get?, implies_true, and_true]
      exact mends.keep id (refusal?_eq_none_iff.mp refused).2 metadata draw
  | get id =>
    refine ⟨mends, fun spared => ?_⟩
    simp only [Vault.apply, mends.get (spared id rfl)]
  | delete id =>
    simp only [Vault.apply, delete_eq, mends.isSome_get?, implies_true, and_true]
    exact mends.erase id
  | list =>
    simp only [Vault.apply, mends.list, implies_true, and_true]
    exact mends
  | contains id =>
    simp only [Vault.apply, contains_eq, mends.isSome_get?, implies_true, and_true]
    exact mends
  | count =>
    simp only [Vault.apply, mends.count, implies_true, and_true]
    exact mends
  | clear =>
    simp only [Vault.apply, clear, mends.count, implies_true, and_true]
    exact mends.store fun id => .none

theorem run (ops : List Operation) : (runOn Vault.apply w ops).2.Mends (runOn Vault.apply v ops).2 :=
  runOn_related (R := Mends) (fun _ _ op related => (apply related op).1) mends ops

end Mends

theorem entryKey_apply (v : Vault) (op : Operation) : (v.apply op).2.entryKey = v.entryKey := by
  cases op with
  | put id material metadata draw =>
    rw [apply_put]
    cases refusal? material with
    | some e => rfl
    | none => rfl
  | get | delete | list | contains | count | clear => rfl

theorem entryKey_run (v : Vault) (ops : List Operation) : (runOn Vault.apply v ops).2.entryKey = v.entryKey :=
  runOn_invariant (P := fun w => w.entryKey = v.entryKey) (s := v)
    (fun w op _ same => (entryKey_apply w op).trans same) rfl

/-- Whatever the entries of a snapshot hold, and whatever is done with the vault that is opened from it: material is
told of a name exactly if the entry under it is the seal of that material, a damaged entry is told of as corrupted and
harms nothing, and it can be overwritten. Some vault mends the one that was opened; with every such vault it keeps
step, and their answers are the same unless the material of a damaged entry is asked for. -/
theorem damage_harms_its_entry_alone {password : Bytes} {cost : Cost} {s : Snapshot} {draw : Draw} {start : Vault}
    (opened : load password cost (some s) draw = .ok start) {ops : List Operation}
    (ran : (runOn Vault.apply start ops).2 = v) :
    (∃ master, s.keyring.unlock password = .ok master ∧ v.entryKey = entryKeyOf master) ∧
      (∀ id, v.Tells id ∧ (v.apply (.get id)).2 = v) ∧
      (∀ id material metadata draw, material ≠ [] → material.length < Sealing.capacity →
        (v.apply (.put id material metadata draw)).2.get id = .ok material) ∧
      (∃ w : Vault, w.Mends start) ∧ ∀ w : Vault, w.Mends start → (runOn Vault.apply w ops).2.Mends v ∧
        ∀ op, (∀ id, op = .get id → ¬v.Damaged id) → ((runOn Vault.apply w ops).2.apply op).1 = (v.apply op).1 := by
  subst ran
  refine ⟨?_, fun id => ⟨tells _ id, rfl⟩, fun id material metadata draw some fits => ?_, ⟨_, mended_mends start⟩,
    fun w mends => ?_⟩
  · obtain ⟨master, unlocked, rfl⟩ := Except.map_eq_ok.mp opened
    exact ⟨master, unlocked, entryKey_run _ ops⟩
  · simp only [apply_put, refusal?_eq_none_iff.mpr ⟨some, fits⟩]
    exact get_keep _ id fits metadata draw
  · have later := mends.run ops
    exact ⟨later, fun op spared => (later.apply op).2 spared⟩

def stub : Entry := ⟨.plain, [1], Draw.plain.nonce, Draw.plain.now, .empty⟩

def stubbed (master : SecretKey) : Vault :=
  { plain master with
    store := (Catalog.empty.insert stub).insert ((plain master).entryOf .other [7] .empty .plain) }

theorem stubbed_store_sound (master : SecretKey) : (stubbed master).store.Sound := by
  have clock : Draw.plain.now.Valid := by decide
  refine fun e member => ⟨?_, ?_⟩
  · rcases Catalog.mem_place member with rfl | member
    · exact Entry.codec_faithful clock
    · rw [List.mem_singleton.mp member]
      exact Entry.codec_faithful clock
  · rcases Catalog.mem_place member with rfl | member
    · have length := Sealing.length_sealText (plain master).entryKey Draw.plain.nonce (KeyId.bytes .other) [7]
      exact List.ne_nil_of_length_pos (length ▸ Nat.succ_pos _)
    · rw [List.mem_singleton.mp member]
      exact List.cons_ne_nil _ _

theorem damage_harms_its_entry_alone_stub : ∃ payload s start, Snapshot.codec.decode payload = .ok s ∧
    load [112] ⟨8, 1, 1⟩ (some s) .plain = .ok start ∧
    start.get .plain = .error (.internal "Record 'a' is corrupted") ∧ start.get .other = .ok [7] ∧
    (start.apply (.put .plain [2] .empty .plain)).2.get .plain = .ok [2] := by
  obtain ⟨master, created⟩ := load_plain
  have sound : (stubbed master).Sound [112] := (Sound.create (by decide) created).store (stubbed_store_sound master)
  have opened := sound.reopens ⟨8, 1, 1⟩ .plain
  have ran : (runOn Vault.apply (stubbed master) []).2 = stubbed master := rfl
  obtain ⟨-, tells, heals, -⟩ := damage_harms_its_entry_alone opened ran
  have found : (stubbed master).store.get? .plain = some stub := by
    have differ : KeyId.other ≠ .plain := by decide
    rw [stubbed, Store.get?_insert, id_entryOf, if_neg differ]
    rfl
  have beside : (stubbed master).store.get? .other = some ((plain master).entryOf .other [7] .empty .plain) := by
    rw [stubbed, Store.get?_insert, id_entryOf, if_pos rfl]
  refine ⟨_, _, _, Snapshot.decode_document sound.saved (.refl _), opened, ?_, ?_, ?_⟩
  · exact ((tells .plain).1.failed _).mpr (.inr ⟨⟨stub, found, Entry.damaged_of_short (by decide)⟩, rfl⟩)
  · exact ((tells .other).1.whole _).mpr ⟨_, beside, rfl, by decide, rfl⟩
  · exact heals .plain [2] .empty .plain (List.cons_ne_nil _ _) (by decide)

end Vault

end Custody
