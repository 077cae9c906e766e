import Custody.Proofs.Key.Store
import Custody.Proofs.Keyring
import Custody.Proofs.Run
import Custody.Vault
import Mathlib.Data.Finmap
import Mathlib.Data.Finset.Sort

/-!
A vault seen as a plain map. A ledger keeps the material itself under each name, with its labels and the
time it was stored; whatever is asked of a vault, it answers as the ledger would. Both refuse the material
that the cipher has no room for, some 256 GiB and more, and are left as they were.
-/

namespace Custody

inductive Vault.Operation where
  | put (id : KeyId) (material : Bytes) (metadata : Metadata) (draw : Draw)
  | get (id : KeyId)
  | delete (id : KeyId)
  | list
  | contains (id : KeyId)
  | count
  | clear

inductive Vault.Outcome where
  | put (r : Except Failure Bool)
  | get (r : Except Failure Bytes)
  | deleted (existed : Bool)
  | list (l : List Summary)
  | contains (found : Bool)
  | count (n : Nat)
  | cleared (removed : Nat)

def Vault.apply (v : Vault) : Operation → Outcome × Vault
  | .put id material metadata draw =>
    match v.put id material metadata draw with
    | .ok (replaced, w) => (.put (.ok replaced), w)
    | .error e => (.put (.error e), v)
  | .get id => (.get (v.get id), v)
  | .delete id => let (existed, w) := v.delete id; (.deleted existed, w)
  | .list => (.list v.list, v)
  | .contains id => (.contains (v.contains id), v)
  | .count => (.count v.count, v)
  | .clear => let (removed, w) := v.clear; (.cleared removed, w)

def Vault.entryOf (v : Vault) (id : KeyId) (material : Bytes) (metadata : Metadata) (draw : Draw) :
    Entry :=
  ⟨id, Sealing.sealText v.entryKey draw.nonce id.bytes material, draw.nonce, draw.now, metadata⟩

def Vault.keep (v : Vault) (e : Entry) : Vault := { v with store := v.store.insert e }

/-- Why material is not stored, if it is not: there is none, or the cipher has no room for it. -/
def Vault.refusal? (material : Bytes) : Option Failure :=
  if material = [] then some (.invalidInput "Key material cannot be empty")
  else if Sealing.capacity ≤ material.length then some (.crypto "Encryption failed: aead::Error")
  else none

theorem Vault.refusal?_eq_none_iff {material : Bytes} :
    refusal? material = none ↔ material ≠ [] ∧ material.length < Sealing.capacity := by
  unfold refusal?
  split_ifs with none long
  · simp [none]
  · simp [none, Nat.not_lt.mpr long]
  · simp [none, Nat.not_le.mp long]

theorem Vault.put_eq (v : Vault) (id : KeyId) (material : Bytes) (metadata : Metadata) (draw : Draw) :
    v.put id material metadata draw =
      match refusal? material with
      | some e => .error e
      | none => .ok (v.contains id, v.keep (v.entryOf id material metadata draw)) := by
  unfold put refusal?
  split_ifs with none long
  · rfl
  · rw [Secret.encrypt_of_long _ _ _ long]
    rfl
  · rw [Secret.encrypt_of_fits _ _ _ (Nat.not_le.mp long)]
    rfl

theorem Vault.apply_put (v : Vault) (id : KeyId) (material : Bytes) (metadata : Metadata) (draw : Draw) :
    v.apply (.put id material metadata draw) =
      match refusal? material with
      | some e => (.put (.error e), v)
      | none => (.put (.ok (v.contains id)), v.keep (v.entryOf id material metadata draw)) := by
  rw [apply, put_eq]
  cases refusal? material with
  | some e => rfl
  | none => rfl

theorem Vault.contains_eq (v : Vault) (id : KeyId) : v.contains id = (v.store.get? id).isSome := rfl

theorem Vault.delete_eq (v : Vault) (id : KeyId) :
    v.delete id = ((v.store.get? id).isSome, { v with store := v.store.erase id.text }) := rfl

@[simp] theorem Vault.id_entryOf (v : Vault) (id : KeyId) (material : Bytes) (metadata : Metadata) (draw : Draw) :
    (v.entryOf id material metadata draw).id = id := rfl

theorem Vault.get?_keep (v : Vault) (e : Entry) (id : KeyId) :
    (v.keep e).store.get? id = if e.id = id then some e else v.store.get? id := Store.get?_insert v.store e id

structure Item where
  material : Bytes
  metadata : Metadata
  created : Instant

def Item.summary (id : KeyId) (i : Item) : Summary := ⟨id, i.metadata, i.created⟩

/-- Items by name. -/
abbrev Ledger := Finmap fun _ : KeyId => Item

namespace Ledger

def summaries (m : Ledger) : List Summary :=
  m.keys.sort.filterMap fun id => (m.lookup id).map (Item.summary id)

def get (m : Ledger) (id : KeyId) : Except Failure Bytes :=
  match m.lookup id with
  | some item => .ok item.material
  | none => .error (.notFound ("Key not found: " ++ id.text))

def apply (m : Ledger) : Vault.Operation → Vault.Outcome × Ledger
  | .put id material metadata draw =>
    match Vault.refusal? material with
    | some e => (.put (.error e), m)
    | none => (.put (.ok (decide (id ∈ m))), m.insert id ⟨material, metadata, draw.now⟩)
  | .get id => (.get (m.get id), m)
  | .delete id => (.deleted (decide (id ∈ m)), m.erase id)
  | .list => (.list m.summaries, m)
  | .contains id => (.contains (decide (id ∈ m)), m)
  | .count => (.count m.keys.card, m)
  | .clear => (.cleared m.keys.card, ∅)

end Ledger

/-- An entry that holds an item under a name: its text is the seal of the material, bound to the name. -/
structure Entry.Holds (key : SecretKey) (id : KeyId) (e : Entry) (item : Item) : Prop where
  summary : e.summary = item.summary id
  seals : Sealing.Seals key e.nonce id.bytes item.material e.sealedText

/-- A vault holds a ledger if it holds each item under its name, and nothing else. -/
def Vault.Holds (v : Vault) (m : Ledger) : Prop :=
  ∀ id, Option.Rel (Entry.Holds v.entryKey id) (v.store.get? id) (m.lookup id)

theorem Vault.list_eq (v : Vault) :
    v.list = v.store.ids.filterMap fun id => (v.store.get? id).map Entry.summary := by
  rw [list, Store.ids, List.filterMap_map, ← List.filterMap_eq_map]
  refine List.filterMap_congr fun e member => ?_
  simp only [Function.comp_apply, Store.mem_iff_get?.mp member, Option.map_some]

namespace Vault.Holds

variable {v : Vault} {m : Ledger}

theorem isSome_get? (holds : v.Holds m) (id : KeyId) : (v.store.get? id).isSome = decide (id ∈ m) := by
  rw [Bool.eq_iff_iff, decide_eq_true_iff, ← Finmap.lookup_isSome, (holds id).isSome_eq]

theorem summary (holds : v.Holds m) (id : KeyId) :
    (v.store.get? id).map Entry.summary = (m.lookup id).map (Item.summary id) :=
  (holds id).map_eq fun _ _ held => held.summary

theorem empty (none : v.store = .empty) : v.Holds ∅ := by
  intro id
  rw [none, Finmap.lookup_empty]
  exact .none

theorem put (holds : v.Holds m) (id : KeyId) {material : Bytes} (fits : material.length < Sealing.capacity)
    (metadata : Metadata) (draw : Draw) :
    (v.keep (v.entryOf id material metadata draw)).Holds (m.insert id ⟨material, metadata, draw.now⟩) := by
  intro other
  rw [get?_keep, id_entryOf]
  by_cases same : id = other
  · subst same
    rw [if_pos rfl, Finmap.lookup_insert]
    exact .some ⟨rfl, fits, rfl⟩
  · rw [if_neg same, Finmap.lookup_insert_of_ne _ (Ne.symm same)]
    exact holds other

theorem delete (holds : v.Holds m) (id : KeyId) :
    Vault.Holds { v with store := v.store.erase id.text } (m.erase id) := by
  intro other
  rw [Store.get?_erase]
  by_cases same : id = other
  · subst same
    rw [if_pos rfl, Finmap.lookup_erase]
    exact .none
  · rw [if_neg same, Finmap.lookup_erase_ne (Ne.symm same)]
    exact holds other

theorem get (holds : v.Holds m) (id : KeyId) : v.get id = m.get id := by
  have related := holds id
  unfold Vault.get Ledger.get
  generalize v.store.get? id = e at related
  generalize m.lookup id = item at related
  cases related with
  | none => rfl
  | some held =>
    simp only [Secret.decrypt_eq_ok_iff.mpr held.seals, Except.mapError]

theorem keys (holds : v.Holds m) : m.keys = v.store.ids.toFinset := by
  ext id
  rw [Finmap.mem_keys, List.mem_toFinset, Store.mem_ids, isSome_get? holds, decide_eq_true_iff]

theorem count (holds : v.Holds m) : v.count = m.keys.card := by
  rw [keys holds, List.toFinset_card_of_nodup v.store.ids_nodup, Store.length_ids]
  rfl

theorem list (holds : v.Holds m) : v.list = m.summaries := by
  have sorted : v.store.ids.Pairwise (· ≤ ·) := v.store.ids_sorted.imp KeyId.le_of_text_lt
  rw [Vault.list_eq, Ledger.summaries, keys holds, (List.toFinset_sort _ v.store.ids_nodup).mpr sorted]
  exact List.filterMap_congr fun id _ => holds.summary id

theorem apply (holds : v.Holds m) (op : Vault.Operation) :
    (v.apply op).1 = (m.apply op).1 ∧ (v.apply op).2.Holds (m.apply op).2 := by
  cases op with
  | put id material metadata draw =>
    cases refused : Vault.refusal? material with
    | some e =>
      simp only [Vault.apply_put, Ledger.apply, refused, true_and]
      exact holds
    | none =>
      simp only [Vault.apply_put, Ledger.apply, refused, Vault.contains_eq, holds.isSome_get?, true_and]
      exact holds.put id (Vault.refusal?_eq_none_iff.mp refused).2 metadata draw
  | get id =>
    simp only [Vault.apply, Ledger.apply, holds.get, true_and]
    exact holds
  | delete id =>
    simp only [Vault.apply, Ledger.apply, Vault.delete_eq, holds.isSome_get?, true_and]
    exact holds.delete id
  | list =>
    simp only [Vault.apply, Ledger.apply, holds.list, true_and]
    exact holds
  | contains id =>
    simp only [Vault.apply, Ledger.apply, Vault.contains_eq, holds.isSome_get?, true_and]
    exact holds
  | count =>
    simp only [Vault.apply, Ledger.apply, holds.count, true_and]
    exact holds
  | clear =>
    simp only [Vault.apply, Ledger.apply, Vault.clear, holds.count, true_and]
    exact .empty rfl

theorem run (holds : v.Holds m) (ops : List Vault.Operation) :
    (runOn Vault.apply v ops).1 = (runOn Ledger.apply m ops).1 ∧
      (runOn Vault.apply v ops).2.Holds (runOn Ledger.apply m ops).2 :=
  runOn_simulation (fun _ _ op related => related.apply op) holds ops

end Vault.Holds

theorem Vault.sort_summaries (v : Vault) {order : List Entry} (perm : order.Perm v.store.toList) :
    (order.map Entry.summary).mergeSort (fun a b => decide (a.id ≤ b.id)) = v.list := by
  have sorted := @List.pairwise_mergeSort Summary (fun a b => decide (a.id ≤ b.id))
    (fun a b c ab bc => decide_eq_true (List.le_trans (of_decide_eq_true ab) (of_decide_eq_true bc)))
    (fun a b => by simpa using Std.Total.total a.id b.id) (order.map Entry.summary)
  have listed : v.list.Pairwise fun a b => decide (a.id ≤ b.id) = true :=
    List.pairwise_map.mpr (v.store.sorted.imp fun less => decide_eq_true (KeyId.le_of_text_lt less))
  have same := (List.mergeSort_perm (order.map Entry.summary)
    fun a b => decide (a.id ≤ b.id)).trans (perm.map Entry.summary)
  -- No two summaries share a name, so the order leaves no choice.
  have distinct : (v.list.map Summary.id).Nodup := by
    rw [list, List.map_map]
    exact v.store.ids_nodup
  refine same.eq_of_pairwise ?_ sorted listed
  intro a b ha hb ab ba
  have equal : a.id = b.id :=
    Std.Antisymm.antisymm _ _ (of_decide_eq_true ab) (of_decide_eq_true ba)
  exact List.inj_on_of_nodup_map distinct (same.mem_iff.mp ha) hb equal

namespace Vault.Operation

def subject : Operation → Option KeyId
  | put id _ _ _ | get id | delete id | contains id => some id
  | list | count | clear => none

/-- What an operation makes of the item under a name, if it touches it. -/
def effect (id : KeyId) : Operation → Option (Option Item)
  | put i material metadata draw =>
    if i = id ∧ refusal? material = none then some (some ⟨material, metadata, draw.now⟩) else none
  | delete i => if i = id then some none else none
  | clear => some none
  | get _ | list | contains _ | count => none

/-- What stands under a name after a row of operations: what the last of them that touches it has
left there. -/
def standing (id : KeyId) (ops : List Operation) : Option Item :=
  (ops.reverse.findSome? (effect id)).join

end Vault.Operation

namespace Ledger

open Vault (Operation)

theorem lookup_apply (m : Ledger) (op : Operation) (id : KeyId) :
    (m.apply op).2.lookup id = (op.effect id).getD (m.lookup id) := by
  cases op with
  | put i material metadata draw =>
    cases refused : Vault.refusal? material with
    | some e => simp [apply, Operation.effect, refused]
    | none =>
      by_cases same : i = id
      · subst same
        simp [apply, Operation.effect, refused]
      · simp [apply, Operation.effect, refused, same, Finmap.lookup_insert_of_ne _ (Ne.symm same)]
  | delete i =>
    simp only [apply, Operation.effect]
    by_cases same : i = id
    · subst same
      simp
    · simp [same, Finmap.lookup_erase_ne (Ne.symm same)]
  | clear => simp [apply, Operation.effect]
  | get _ | list | contains _ | count => rfl

theorem lookup_run (ops : List Operation) (id : KeyId) :
    (runOn apply ∅ ops).2.lookup id = Operation.standing id ops := by
  induction ops using List.reverseRec with
  | nil => rfl
  | append_singleton ops op ih =>
    rw [runOn_append]
    have last := lookup_apply (runOn apply ∅ ops).2 op id
    rw [ih] at last
    simp only [Operation.standing, List.reverse_append, List.reverse_singleton, List.singleton_append,
      List.findSome?_cons] at last ⊢
    refine last.trans ?_
    cases op.effect id <;> rfl

theorem outcome_congr {m n : Ledger} {op : Operation} {id : KeyId} (about : op.subject = some id)
    (same : m.lookup id = n.lookup id) : (m.apply op).1 = (n.apply op).1 := by
  have member : id ∈ m ↔ id ∈ n := by rw [← Finmap.lookup_isSome, same, Finmap.lookup_isSome]
  cases op with
  | put i material metadata draw =>
    cases about
    simp only [apply, member]
    split <;> rfl
  | get i =>
    cases about
    simp only [apply, get, same]
  | delete i | contains i =>
    cases about
    simp only [apply, member]
  | list | count | clear => cases about

theorem effect_eq_none {op : Operation} {i j : KeyId} (about : op.subject = some i) (differ : i ≠ j) :
    op.effect j = none := by
  cases op <;> cases about <;> simp [Operation.effect, differ]

end Ledger

/-- How a vault answers for the operations that it has gone through. -/
structure Vault.AnswersFor (v : Vault) (ops : List Vault.Operation) : Prop where
  get : ∀ id, v.get id =
    match Vault.Operation.standing id ops with
    | some item => .ok item.material
    | none => .error (.notFound ("Key not found: " ++ id.text))
  /-- Every name that stands is told of once, with what was last stored under it. -/
  listed : ∀ s, s ∈ v.list ↔ (Vault.Operation.standing s.id ops).map (Item.summary s.id) = some s
  ascending : v.list.Pairwise fun a b => a.id.bytes < b.id.bytes
  count : v.count = v.list.length
  /-- The list does not depend on how the entries are arranged before they are sorted. -/
  arranged : ∀ order : List Entry, order.Perm v.store.toList →
    (order.map Entry.summary).mergeSort (fun a b => decide (a.id ≤ b.id)) = v.list
  /-- What is done under one name changes no answer under another. -/
  apart : ∀ (a b : Vault.Operation) (i j : KeyId), a.subject = some i → b.subject = some j → i ≠ j →
    ((v.apply a).2.apply b).1 = (v.apply b).1

namespace Vault.Holds

variable {v : Vault} {m : Ledger}

theorem mem_list (holds : v.Holds m) (s : Summary) :
    s ∈ v.list ↔ (m.lookup s.id).map (Item.summary s.id) = some s := by
  rw [← holds.summary, Option.map_eq_some_iff, Vault.list, List.mem_map]
  constructor
  · rintro ⟨e, member, rfl⟩
    exact ⟨e, Store.mem_iff_get?.mp member, rfl⟩
  · rintro ⟨e, found, shown⟩
    have same := Store.id_of_get? found
    exact ⟨e, Store.mem_iff_get?.mpr (same ▸ found), shown⟩

theorem apart (holds : v.Holds m) {a b : Vault.Operation} {i j : KeyId} (ha : a.subject = some i)
    (hb : b.subject = some j) (differ : i ≠ j) : ((v.apply a).2.apply b).1 = (v.apply b).1 := by
  have untouched : (m.apply a).2.lookup j = m.lookup j := by
    rw [Ledger.lookup_apply, Ledger.effect_eq_none ha differ, Option.getD_none]
  rw [((holds.apply a).2.apply b).1, (holds.apply b).1, Ledger.outcome_congr hb untouched]

end Vault.Holds

def Vault.fresh (cost : Cost) (draw : Draw) (master : SecretKey) : Vault :=
  ⟨.fresh cost draw master, entryKeyOf master, .empty⟩

theorem Vault.create_eq (password : Bytes) (cost : Cost) (draw : Draw) :
    Vault.create password cost draw = (Secret.deriveKey password draw.salt cost).map (fresh cost draw) := by
  rw [create, Keyring.create_eq]
  cases Secret.deriveKey password draw.salt cost with
  | error e => rfl
  | ok master => rfl

theorem Vault.load_none {password : Bytes} {cost : Cost} {draw : Draw} {v : Vault}
    (opened : Vault.load password cost none draw = .ok v) : v.store = .empty := by
  rw [load, create_eq] at opened
  obtain ⟨master, -, rfl⟩ := Except.map_eq_ok.mp opened
  rfl

/-- A vault that was opened without a saved one answers every row of operations as an empty ledger
does; both refuse material that is empty or that the cipher has no room for. -/
theorem fresh_vault_is_ledger {password : Bytes} {cost : Cost} {draw : Draw} {v : Vault}
    (opened : Vault.load password cost none draw = .ok v) (ops : List Vault.Operation) :
    (runOn Vault.apply v ops).1 = (runOn Ledger.apply ∅ ops).1 ∧
      (runOn Vault.apply v ops).2.AnswersFor ops := by
  have start : v.Holds ∅ := .empty (Vault.load_none opened)
  obtain ⟨same, holds⟩ := start.run ops
  refine ⟨same, ?_⟩
  exact {
    get := fun id => by rw [holds.get, Ledger.get, Ledger.lookup_run]
    listed := fun s => by rw [holds.mem_list, Ledger.lookup_run]
    ascending := List.pairwise_map.mpr
      ((runOn Vault.apply v ops).2.store.sorted.imp KeyId.bytes_lt_bytes.mpr)
    count := (List.length_map _).symm
    arranged := fun _ perm => Vault.sort_summaries _ perm
    apart := fun _ _ _ _ ha hb differ => holds.apart ha hb differ }

def Vault.Operation.row : List Vault.Operation :=
  [.put .plain [1] .empty .plain, .put .plain [2] .empty .plain, .get .plain, .delete .plain, .list]

theorem fresh_vault_is_ledger_row : ∃ v, Vault.load [112] ⟨8, 1, 1⟩ none .plain = .ok v ∧
    (runOn Vault.apply v Vault.Operation.row).1 = (runOn Ledger.apply ∅ Vault.Operation.row).1 ∧
      (runOn Vault.apply v Vault.Operation.row).2.AnswersFor Vault.Operation.row := by
  have opened : Vault.load [112] ⟨8, 1, 1⟩ none .plain = .ok _ := Vault.create_eq _ _ _
  exact ⟨_, opened, fresh_vault_is_ledger opened Vault.Operation.row⟩

end Custody
