import Custody.Proofs.Vault.Ledger
import Custody.Service

/-!
What requests do to the vault, and which of them save it. The vault after a request depends on the vault
before it and on nothing else; the disk changes only where the vault is saved.
-/

namespace Custody

def Request.operation? (draw : Draw) : Request → Option Vault.Operation
  | .put id material metadata => some (.put id material metadata draw)
  | .get id => some (.get id)
  | .delete id => some (.delete id)
  | .list => some .list
  | .contains id => some (.contains id)
  | .count => some .count
  | .clear => some .clear
  | .auth _ | .save | .ping => none

def Vault.after (v : Vault) (draw : Draw) (r : Request) : Vault :=
  match r.operation? draw with
  | some op => (v.apply op).2
  | none => v

/-- Tells whether a request changes something that is stored. -/
def Vault.changes (v : Vault) : Request → Bool
  | .put _ material _ => (refusal? material).isNone
  | .delete id => v.contains id
  | .clear => 0 < v.count
  | .auth _ | .get _ | .list | .contains _ | .count | .save | .ping => false

theorem Vault.after_of_not_changes {v : Vault} {r : Request} (idle : v.changes r = false) (draw : Draw) :
    v.after draw r = v := by
  cases r with
  | put id material metadata =>
    obtain ⟨e, refused⟩ : ∃ e, refusal? material = some e := by
      simpa [changes, Option.isSome_iff_exists] using idle
    simp only [after, Request.operation?, apply_put, refused]
  | delete id =>
    have absent : v.store.find? id.text = none := by
      simpa [changes, Vault.contains, Catalog.contains] using idle
    have same : v.store.erase id.text = v.store := by
      refine Catalog.ext_find? fun t => ?_
      rw [Catalog.find?_erase]
      split
      · rename_i name
        rw [name, absent]
      · rfl
    simp only [after, Request.operation?, apply, delete, same]
  | clear =>
    have none : v.store.toList = [] :=
      List.length_eq_zero_iff.mp (Nat.eq_zero_of_not_pos (of_decide_eq_false idle))
    have same : (Catalog.empty : Store) = v.store := by
      refine Catalog.ext_find? fun t => ?_
      rw [Catalog.find?_empty, Catalog.find?, none]
      rfl
    simp only [after, Request.operation?, apply, clear, same]
  | auth | get | list | contains | count | save | ping => rfl

namespace Service

variable {s : Service} {supply : Supply} {h : Holdings} {r : Request}

def saves (s : Service) (v : Vault) : Request → Bool
  | .save => true
  | r => s.saveOnWrite && v.changes r

theorem afterChange_eq (s : Service) (supply : Supply) (h : Holdings) :
    s.afterChange supply h = if s.saveOnWrite then (s.save supply h).2 else h := rfl

theorem save_held (s : Service) (supply : Supply) (h : Holdings) :
    (s.save supply h).2 = ⟨h.vault, (s.keeper.save supply.plan h.vault.snapshot supply.saving h.disk).disk⟩ := by
  unfold save
  simp only
  split <;> rfl

theorem save_told {result : Except Failure Unit}
    (ended : (s.keeper.save supply.plan h.vault.snapshot supply.saving h.disk).result = some result) :
    (s.save supply h).1 = result.map fun _ => h.vault.count := by
  simp only [save, ended]
  cases result <;> rfl

theorem count_of_save {n : Nat} (saved : (s.save supply h).1 = .ok n) : n = h.vault.count := by
  simp only [save] at saved
  split at saved
  · cases saved
    rfl
  · cases saved
  · cases saved

theorem perform_put (s : Service) (supply : Supply) (h : Holdings) (id : KeyId) (material : Bytes)
    (metadata : Metadata) :
    s.perform supply h (.put id material metadata) =
      match Vault.refusal? material with
      | some e => (.error e, h)
      | none => (.ok (.stored (h.vault.contains id)), s.afterChange supply
          { h with vault := h.vault.keep (h.vault.entryOf id material metadata supply.draw) }) := by
  rw [perform, Vault.put_eq]
  cases Vault.refusal? material with
  | some e => rfl
  | none => rfl

theorem perform_held (s : Service) (supply : Supply) (h : Holdings) (r : Request) :
    (s.perform supply h r).2 =
      if s.saves h.vault r then (s.save supply { h with vault := h.vault.after supply.draw r }).2
      else { h with vault := h.vault.after supply.draw r } := by
  cases r with
  | put id material metadata =>
    cases refused : Vault.refusal? material with
    | some e => simp [perform_put, saves, Vault.changes, Vault.after, Request.operation?, Vault.apply_put, refused]
    | none =>
      simp [perform_put, saves, Vault.changes, Vault.after, Request.operation?, Vault.apply_put, refused,
        afterChange_eq]
  | delete id =>
    by_cases found : h.vault.contains id = true
    · have existed : (h.vault.delete id).1 = true := found
      simp [perform, saves, Vault.changes, Vault.after, Request.operation?, Vault.apply, found, existed,
        afterChange_eq]
    · have existed : (h.vault.delete id).1 = false := Bool.eq_false_iff.mpr found
      simp [perform, saves, Vault.changes, Vault.after, Request.operation?, Vault.apply, found, existed]
  | clear =>
    by_cases stored : 0 < h.vault.count
    · have removed : 0 < h.vault.clear.1 := stored
      simp [perform, saves, Vault.changes, Vault.after, Request.operation?, Vault.apply, stored, removed,
        afterChange_eq]
    · have removed : ¬0 < h.vault.clear.1 := stored
      simp [perform, saves, Vault.changes, Vault.after, Request.operation?, Vault.apply, stored, removed]
  | save =>
    have held : (s.perform supply h .save).2 = (s.save supply h).2 := by
      rw [perform]
      split
      · rename_i saved
        rw [saved]
      · rename_i saved
        rw [saved]
    rw [held]
    rfl
  | auth | get | list | contains | count | ping =>
    simp [perform, saves, Vault.changes, Vault.after, Request.operation?, Vault.apply]

theorem handle_held (s : Service) (supply : Supply) (h : Holdings) (r : Request) :
    (s.handle supply h r).2 =
      if s.saves h.vault r then (s.save supply { h with vault := h.vault.after supply.draw r }).2
      else { h with vault := h.vault.after supply.draw r } := by
  rw [← perform_held, handle]
  split
  · rename_i performed
    rw [performed]
  · rename_i performed
    rw [performed]

theorem handle_vault (s : Service) (supply : Supply) (h : Holdings) (r : Request) :
    (s.handle supply h r).2.vault = h.vault.after supply.draw r := by
  rw [handle_held]
  split
  · rw [save_held]
  · rfl

theorem perform_saved {rest : Holdings} {n : Nat} (performed : s.perform supply h r = (.ok (.saved n), rest)) :
    r = .save ∧ (s.save supply h).1 = .ok n := by
  cases r with
  | save =>
    refine ⟨rfl, ?_⟩
    simp only [perform] at performed
    split at performed
    · rename_i saved
      cases performed
      rw [saved]
    · cases performed
  | put id material metadata =>
    simp only [perform] at performed
    split at performed <;> cases performed
  | get id =>
    simp only [perform] at performed
    cases found : h.vault.get id with
    | error e =>
      rw [found] at performed
      cases performed
    | ok material =>
      rw [found] at performed
      cases performed
  | auth | delete | list | contains | count | clear | ping => cases performed

/-- Only a save that succeeds is reported as one. -/
theorem handle_saved {n : Nat} (answered : (s.handle supply h r).1 = .saved n) :
    r = .save ∧ (s.save supply h).1 = .ok n := by
  rw [handle] at answered
  split at answered
  · rename_i response rest performed
    have same : response = .saved n := answered
    exact perform_saved (same ▸ performed)
  · cases answered

end Service

end Custody
