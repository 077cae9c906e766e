import Custody.Proofs.Keeper
import Custody.Proofs.Service.Requests
import Custody.Proofs.Vault.Reopening

/-!
The file on the disk and the vault in memory. As long as every save succeeds, a service that saves every
change can be stopped after any request, and the vault is loaded again as it was.
-/

namespace Custody

/-- The file is what would be saved of the vault, or there is no file and nothing to be saved. -/
def Keeper.Keeps (k : Keeper) (h : Holdings) : Prop :=
  k.restore h.disk = .ok none ∧ h.vault.store = .empty ∨ k.restore h.disk = .ok (some h.vault.snapshot)

theorem Vault.Sound.after {password : Bytes} {v : Vault} (sound : v.Sound password) {draw : Draw}
    (clock : draw.now.Valid) (r : Request) : (v.after draw r).Sound password := by
  cases r with
  | put id material metadata => exact @Vault.Sound.apply password v sound (.put id material metadata draw) clock
  | get id => exact @Vault.Sound.apply password v sound (.get id) trivial
  | delete id => exact @Vault.Sound.apply password v sound (.delete id) trivial
  | list => exact @Vault.Sound.apply password v sound (.list) trivial
  | contains id => exact @Vault.Sound.apply password v sound (.contains id) trivial
  | count => exact @Vault.Sound.apply password v sound (.count) trivial
  | clear => exact @Vault.Sound.apply password v sound (.clear) trivial
  | auth | save | ping => exact sound

namespace Service

def answer (s : Service) (h : Holdings) (requests : List (Supply × Request)) : List Response × Holdings :=
  runOn (fun h q => s.handle q.1 h q.2) h requests

def Unhindered (s : Service) (h : Holdings) : List (Supply × Request) → Prop
  | [] => True
  | (supply, r) :: rest =>
    (s.saves h.vault r = true →
        ∃ n, (s.save supply { h with vault := h.vault.after supply.draw r }).1 = .ok n) ∧
      s.Unhindered (s.handle supply h r).2 rest

section Save

variable {s : Service} {supply : Supply} {h : Holdings} {n : Nat}

theorem restore_save (saved : (s.save supply h).1 = .ok n) (sound : h.vault.snapshot.Sound) :
    n = h.vault.count ∧ s.keeper.restore (s.save supply h).2.disk = .ok (some h.vault.snapshot) := by
  have done : (s.keeper.save supply.plan h.vault.snapshot supply.saving h.disk).result = some (.ok ()) ∧
      n = h.vault.count := by
    simp only [save] at saved
    split at saved
    · rename_i result
      cases saved
      exact ⟨result, rfl⟩
    · cases saved
    · cases saved
  rw [save_held]
  exact ⟨done.2, Keeper.restore_save sound done.1⟩

end Save

variable {s : Service} {password : Bytes} {h : Holdings} {supply : Supply} {r : Request}

/-- One request: whether it changes the vault, or saves it, or does neither, the file stands for the vault. -/
theorem keeps_handle (saving : s.saveOnWrite = true) (clock : supply.draw.now.Valid)
    (sound : h.vault.Sound password) (keeps : s.keeper.Keeps h)
    (unhindered : s.saves h.vault r = true →
      ∃ n, (s.save supply { h with vault := h.vault.after supply.draw r }).1 = .ok n) :
    (s.handle supply h r).2.vault.Sound password ∧ s.keeper.Keeps (s.handle supply h r).2 := by
  have after := sound.after clock r
  refine ⟨?_, ?_⟩
  · rw [handle_vault]
    exact after
  · rw [handle_held]
    cases saves : s.saves h.vault r with
    | true =>
      obtain ⟨n, saved⟩ := unhindered saves
      have restored := (restore_save saved after.saved).2
      rw [if_pos rfl]
      refine .inr (restored.trans ?_)
      rw [save_held]
    | false =>
      have idle : h.vault.changes r = false := by
        cases r with
        | save => rfl
        | put | get | delete | list | contains | count | clear | auth | ping =>
          simpa [Service.saves, saving] using saves
      rw [if_neg Bool.false_ne_true, Vault.after_of_not_changes idle]
      exact keeps

theorem restored_of_saved {n : Nat} (sound : h.vault.Sound password)
    (answered : (s.handle supply h r).1 = .saved n) :
    ∃ saved, s.keeper.restore (s.handle supply h r).2.disk = .ok (some saved) ∧ saved.store.size = n := by
  obtain ⟨rfl, done⟩ := handle_saved answered
  obtain ⟨same, restored⟩ := restore_save done sound.saved
  have saves : s.saves h.vault .save = true := rfl
  rw [handle_held, if_pos saves]
  exact ⟨_, restored, same.symm⟩

theorem keeps_loaded {k : Keeper} {disk : Disk} {saved : Option Snapshot} {cost : Cost} {draw : Draw} {v : Vault}
    (clock : draw.now.Valid) (restored : k.restore disk = .ok saved)
    (loaded : Vault.load password cost saved draw = .ok v) : v.Sound password ∧ k.Keeps ⟨v, disk⟩ := by
  cases saved with
  | none =>
    obtain ⟨made, -, rfl⟩ := Except.map_eq_ok.mp loaded
    exact ⟨.create clock loaded, .inl ⟨restored, rfl⟩⟩
  | some found =>
    have sound := Vault.Sound.ofSnapshot (Keeper.sound_of_restore restored) loaded
    obtain ⟨master, -, rfl⟩ := Except.map_eq_ok.mp loaded
    exact ⟨sound, .inr restored⟩

theorem keeps_answer (saving : s.saveOnWrite = true) {requests done : List (Supply × Request)}
    (timely : ∀ q ∈ requests, q.1.draw.now.Valid) (sound : h.vault.Sound password) (keeps : s.keeper.Keeps h)
    (unhindered : s.Unhindered h requests) (reached : done <+: requests) :
    (s.answer h done).2.vault.Sound password ∧ s.keeper.Keeps (s.answer h done).2 ∧
      ∀ n, (s.answer h done).1.getLast? = some (.saved n) →
        ∃ saved, s.keeper.restore (s.answer h done).2.disk = .ok (some saved) ∧ saved.store.size = n := by
  induction done generalizing h requests with
  | nil => exact ⟨sound, keeps, fun n last => by cases last⟩
  | cons q rest ih =>
    obtain ⟨more, rfl⟩ := reached
    obtain ⟨supply, r⟩ := q
    obtain ⟨first, later⟩ := unhindered
    have clock : supply.draw.now.Valid := timely (supply, r) List.mem_cons_self
    obtain ⟨sound', keeps'⟩ := keeps_handle saving clock sound keeps first
    obtain ⟨sound'', keeps'', counted⟩ := ih (fun q member => timely q (List.mem_cons_of_mem _ member))
      sound' keeps' later (List.prefix_append rest more)
    refine ⟨sound'', keeps'', fun n last => ?_⟩
    cases rest with
    | nil => exact restored_of_saved sound (Option.some.inj last)
    | cons q rest => exact counted n (List.getLast?_cons_cons.symm.trans last)

/-- A service that saves every change, whose saves succeed: after every request the vault is the one that
would be loaded from the file, or there is no file and the vault is empty; and where a save is reported, the
file has as many entries as the report says. -/
theorem loads_after_every_request {k : Keeper} {password : Bytes} {disk : Disk} {saved : Option Snapshot}
    {cost : Cost} {draw : Draw} {v : Vault} (clock : draw.now.Valid) (restored : k.restore disk = .ok saved)
    (loaded : Vault.load password cost saved draw = .ok v) {requests done : List (Supply × Request)}
    (timely : ∀ q ∈ requests, q.1.draw.now.Valid)
    (unhindered : Unhindered ⟨k, true⟩ ⟨v, disk⟩ requests) (reached : done <+: requests)
    {answers : List Response} {h : Holdings} (ran : answer ⟨k, true⟩ ⟨v, disk⟩ done = (answers, h)) :
    (k.restore h.disk = .ok none ∧ h.vault.count = 0 ∨
        ∃ s, k.restore h.disk = .ok (some s) ∧ ∀ cost draw, Vault.load password cost (some s) draw = .ok h.vault) ∧
      ∀ n, answers.getLast? = some (.saved n) →
        ∃ s, k.restore h.disk = .ok (some s) ∧ s.store.size = n := by
  obtain ⟨sound, keeps⟩ := keeps_loaded clock restored loaded
  obtain ⟨sound', keeps', counted⟩ := @keeps_answer ⟨k, true⟩ _ _ rfl _ _ timely sound keeps unhindered reached
  rw [ran] at sound' keeps' counted
  refine ⟨?_, counted⟩
  obtain ⟨absent, empty⟩ | found := keeps'
  · have none : h.vault.count = 0 := congrArg Catalog.size empty
    exact .inl ⟨absent, none⟩
  · exact .inr ⟨_, found, sound'.reopens⟩

def onePut : List (Supply × Request) := [(⟨.plain, .plain, .smooth⟩, .put .plain [1] .empty)]

theorem after_plain (master : SecretKey) :
    (Vault.plain master).after .plain (.put .plain [1] .empty) = .stored master :=
  congrArg Prod.snd (Vault.apply_plain master)

theorem loads_after_every_request_put : ∃ v answers h, Keeper.plain.restore (.empty .root) = .ok none ∧
    Vault.load [112] ⟨8, 1, 1⟩ none .plain = .ok v ∧ Unhindered ⟨.plain, true⟩ ⟨v, .empty .root⟩ onePut ∧
    answer ⟨.plain, true⟩ ⟨v, .empty .root⟩ onePut = (answers, h) ∧
      (Keeper.plain.restore h.disk = .ok none ∧ h.vault.count = 0 ∨ ∃ s, Keeper.plain.restore h.disk = .ok (some s) ∧
        ∀ cost draw, Vault.load [112] cost (some s) draw = .ok h.vault) := by
  have clock : Draw.plain.now.Valid := by decide
  have timely : ∀ q ∈ onePut, q.1.draw.now.Valid := List.forall_mem_singleton.mpr clock
  have restored : Keeper.plain.restore (.empty .root) = .ok none := rfl
  obtain ⟨master, loaded⟩ := Vault.load_plain
  obtain ⟨key, derived⟩ : ∃ key, Secret.deriveKey [113] Draw.plain.salt ⟨8, 1, 1⟩ = .ok key := ⟨_, rfl⟩
  have checked := Sealing.length_sealText (Keyring.checkKey master) Draw.plain.nonce [] Keyring.checkText
  have small := Sealing.length_sealText (Vault.entryKeyOf master) Draw.plain.nonce KeyId.plain.bytes [1]
  have made := Archive.sealDocument_eq (by decide) derived (Vault.length_document_plain checked small)
  have beside : (Disk.empty .root).beside Keeper.plain.path = .ok .root := rfl
  have unused : (Disk.empty .root).at? (Place.root.child Draw.plain.scratch) = none := rfl
  have free : (Disk.empty .root).slot Keeper.plain.path = .ok (Place.root.child "vault") := rfl
  have saved := @Keeper.save_smooth .plain (Vault.stored master).snapshot .plain (.empty .root) _ _ _ made beside
    unused free
  have unhindered : Unhindered ⟨.plain, true⟩ ⟨Vault.plain master, .empty .root⟩ onePut := by
    refine ⟨fun _ => ⟨1, ?_⟩, trivial⟩
    simp only [save, after_plain, saved]
    rfl
  exact ⟨_, _, _, restored, loaded, unhindered, (Prod.eta _).symm,
    (loads_after_every_request clock restored loaded timely unhindered (List.prefix_refl _) (Prod.eta _).symm).1⟩

end Service

end Custody
