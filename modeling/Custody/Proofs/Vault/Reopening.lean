import Custody.Proofs.Archive
import Custody.Proofs.Vault.Ledger

/-!
What was saved of a vault opens again as the same vault. Through all operations a vault keeps its keyring and
the key that its password stands for, and whatever it stores can be written and read back.
-/

namespace Custody

namespace Vault

/-- The password opens the keyring, and the entries are sealed with the key it stands for; all that is saved
can be written and read back. -/
structure Sound (password : Bytes) (v : Vault) : Prop where
  unlocks : ∃ master, v.keyring.unlock password = .ok master ∧ v.entryKey = entryKeyOf master
  saved : v.snapshot.Sound

inductive Opened (password : Bytes) : Vault → Prop where
  | fresh {cost : Cost} {draw : Draw} {v : Vault} (clock : draw.now.Valid)
      (opened : load password cost none draw = .ok v) : Opened password v
  | saved {payload : Bytes} {s : Snapshot} {cost : Cost} {draw : Draw} {v : Vault}
      (decoded : Snapshot.codec.decode payload = .ok s) (opened : load password cost (some s) draw = .ok v) :
      Opened password v

def Operation.Timely : Operation → Prop
  | .put _ _ _ draw => draw.now.Valid
  | .get _ | .delete _ | .list | .contains _ | .count | .clear => True

namespace Sound

variable {password : Bytes} {v : Vault}

theorem create {cost : Cost} {draw : Draw} (clock : draw.now.Valid)
    (made : Vault.create password cost draw = .ok v) : v.Sound password := by
  obtain ⟨⟨k, master⟩, created, rfl⟩ := Except.map_eq_ok.mp made
  obtain ⟨unlocked, now⟩ := Keyring.unlock_create created
  exact ⟨⟨master, unlocked, rfl⟩, Keyring.codec_faithful (now ▸ clock), Store.sound_empty⟩

theorem ofSnapshot {s : Snapshot} (sound : s.Sound) (opened : Vault.ofSnapshot password s = .ok v) :
    v.Sound password := by
  obtain ⟨master, unlocked, rfl⟩ := Except.map_eq_ok.mp opened
  exact ⟨⟨master, unlocked, rfl⟩, sound⟩

theorem opened (h : v.Opened password) : v.Sound password := by
  cases h with
  | fresh clock made => exact create clock made
  | saved decoded made => exact ofSnapshot (Snapshot.sound_of_decode decoded) made

theorem store (sound : v.Sound password) {t : Store} (kept : t.Sound) :
    Vault.Sound password { v with store := t } := ⟨sound.unlocks, sound.saved.keyring, kept⟩

theorem apply (sound : v.Sound password) {op : Operation} (timely : op.Timely) :
    (v.apply op).2.Sound password := by
  cases op with
  | put id material metadata draw =>
    rw [apply_put]
    cases refusal? material with
    | some e => exact sound
    | none =>
      refine sound.store fun e member => ?_
      rcases Catalog.mem_place member with rfl | member
      · refine ⟨Entry.codec_faithful timely, fun none => ?_⟩
        have long := Sealing.length_sealText v.entryKey draw.nonce id.bytes material
        have zero := congrArg List.length none
        simp only [entryOf] at zero
        rw [long] at zero
        cases zero
      · exact sound.saved.store e member
  | delete id =>
    refine sound.store fun e member => sound.saved.store e ?_
    exact List.mem_of_mem_filter member
  | clear => exact sound.store Store.sound_empty
  | get _ | list | contains _ | count => exact sound

theorem reopens (sound : v.Sound password) (cost : Cost) (draw : Draw) :
    load password cost (some v.snapshot) draw = .ok v := by
  obtain ⟨master, unlocked, key⟩ := sound.unlocks
  simp only [load, Vault.ofSnapshot, snapshot, unlocked, Except.map, ← key]

theorem run (sound : v.Sound password) {ops : List Operation} (timely : ∀ op ∈ ops, op.Timely) :
    (runOn Vault.apply v ops).2.Sound password :=
  runOn_invariant (fun _ op member kept => kept.apply (timely op member)) sound

end Sound

/-- The archive of a vault that was opened and used in any way gives back all that was saved of it, in
whatever order the entries were listed, and opens with the vault's password as the very same vault. -/
theorem archived_vault_reopens {password secret : Bytes} {start v : Vault} (opened : start.Opened password)
    {ops : List Operation} (timely : ∀ op ∈ ops, op.Timely) (ran : (runOn Vault.apply start ops).2 = v)
    {order : List Entry} (perm : order.Perm v.store.toList) {cost : Cost} {draw : Draw} {b : Bytes}
    (made : Archive.sealDocument .standard (Snapshot.document v.keyring order) secret cost draw = .ok b) :
    Archive.decode b secret = .ok v.snapshot ∧
      ∀ cost draw, load password cost (some v.snapshot) draw = .ok v := by
  have sound : v.Sound password := ran ▸ (Sound.opened opened).run timely
  exact ⟨Archive.decode_sealDocument sound.saved perm made, sound.reopens⟩

theorem length_document_plain {check sealedText : Bytes} (checked : check.length = 43)
    (small : sealedText.length = 17) :
    (Snapshot.document ⟨Draw.plain.salt, ⟨8, 1, 1⟩, check, Draw.plain.nonce, Draw.plain.now⟩
      [⟨.plain, sealedText, Draw.plain.nonce, Draw.plain.now, .empty⟩]).render.length < Sealing.capacity := by
  simp only [Snapshot.document, Keyring.codec, Keyring.schema, Entry.codec, Entry.schema, Json.Codec.list,
    Json.Schema.codec, Json.Schema.members, Json.record, List.map_cons, List.map_nil, Json.render,
    Json.renderItems, Json.renderMembers, List.length_append, List.length_cons,
    Json.Codec.length_render_base64, checked, small]
  decide +kernel

def plain (master : SecretKey) : Vault :=
  ⟨⟨Draw.plain.salt, ⟨8, 1, 1⟩, Sealing.sealText (Keyring.checkKey master) Draw.plain.nonce [] Keyring.checkText,
    Draw.plain.nonce, Draw.plain.now⟩, entryKeyOf master, .empty⟩

theorem load_plain : ∃ master, load [112] ⟨8, 1, 1⟩ none .plain = .ok (plain master) := ⟨_, create_eq _ _ _⟩

def stored (master : SecretKey) : Vault := (plain master).keep ((plain master).entryOf .plain [1] .empty .plain)

theorem apply_plain (master : SecretKey) :
    (plain master).apply (.put .plain [1] .empty .plain) = (.put (.ok false), stored master) := apply_put ..

theorem archived_vault_reopens_put : ∃ start v b, start.Opened [112] ∧
    (runOn Vault.apply start [.put .plain [1] .empty .plain]).2 = v ∧
    Archive.sealDocument .standard (Snapshot.document v.keyring v.store.toList) [113] ⟨8, 1, 1⟩ .plain = .ok b ∧
    Archive.decode b [113] = .ok v.snapshot ∧
      ∀ cost draw, load [112] cost (some v.snapshot) draw = .ok v := by
  have clock : Draw.plain.now.Valid := by decide
  have timely : ∀ op ∈ [Operation.put .plain [1] .empty .plain], op.Timely :=
    List.forall_mem_singleton.mpr clock
  obtain ⟨master, loaded⟩ := load_plain
  obtain ⟨key, derived⟩ : ∃ key, Secret.deriveKey [113] Draw.plain.salt ⟨8, 1, 1⟩ = .ok key := ⟨_, rfl⟩
  have checked := Sealing.length_sealText (Keyring.checkKey master) Draw.plain.nonce [] Keyring.checkText
  have small := Sealing.length_sealText (entryKeyOf master) Draw.plain.nonce KeyId.plain.bytes [1]
  have made := Archive.sealDocument_eq (by decide) derived (length_document_plain checked small)
  have start := Opened.fresh clock loaded
  have ran : (runOn Vault.apply (plain master) [.put .plain [1] .empty .plain]).2 = stored master :=
    congrArg Prod.snd (apply_plain master)
  exact ⟨_, _, _, start, ran, made, archived_vault_reopens start timely ran (.refl _) made⟩

end Vault

end Custody
