import Custody.Proofs.Keeper
import Custody.Proofs.Service.Requests
import Custody.Proofs.Vault.Reopening

/-!
Saving is not seen by clients. What is answered and what becomes of the vault follows from the vault, the nonce and
the time alone, whether changes are saved or not and whatever becomes of the saves; and a request that is answered
with a failure leaves the vault as it was.
-/

namespace Custody

structure Supply.Alike (a b : Supply) : Prop where
  nonce : a.draw.nonce = b.draw.nonce
  now : a.draw.now = b.draw.now

variable {s t : Service} {a b : Supply} {h g : Holdings} {r : Request}

theorem Vault.put_alike (v : Vault) (alike : a.Alike b) (id : KeyId) (material : Bytes) (metadata : Metadata) :
    v.put id material metadata a.draw = v.put id material metadata b.draw := by
  rw [put, put, alike.nonce, alike.now]

theorem Vault.after_alike (v : Vault) (alike : a.Alike b) (r : Request) : v.after a.draw r = v.after b.draw r := by
  cases r with
  | put id material metadata =>
    simp only [after, Request.operation?, apply, put_alike v alike]
  | get | delete | list | contains | count | clear | auth | save | ping => rfl

namespace Service

/-- The same request, at the same time and with the same nonce. It is not to save. -/
structure Alike (p q : Supply × Request) : Prop where
  supply : p.1.Alike q.1
  request : p.2 = q.2
  unsaved : p.2 ≠ .save

def history (s : Service) (h : Holdings) (requests : List (Supply × Request)) : List (Response × Vault) :=
  (runOn (fun h q => let (response, h) := s.handle q.1 h q.2; ((response, h.vault), h)) h requests).1

theorem handle_alike (vaults : h.vault = g.vault) (alike : a.Alike b) (unsaved : r ≠ .save) :
    (s.handle a h r).1 = (t.handle b g r).1 := by
  cases r with
  | put id material metadata =>
    simp only [handle, perform, vaults, g.vault.put_alike alike]
    cases g.vault.put id material metadata b.draw <;> rfl
  | get id =>
    simp only [handle, perform, vaults]
    cases g.vault.get id <;> rfl
  | delete | list | contains | count | clear =>
    simp only [handle, perform, vaults]
  | save => exact absurd rfl unsaved
  | auth | ping => rfl

theorem changes_of_failed {kind : FailureKind} {message : String}
    (failed : (s.handle a h r).1 = .failed kind message) : h.vault.changes r = false := by
  cases r with
  | put id material metadata =>
    cases refused : Vault.refusal? material with
    | some e => simp only [Vault.changes, refused, Option.isNone_some]
    | none =>
      simp only [handle, perform_put, refused] at failed
      cases failed
  | delete | clear => cases failed
  | auth | get | list | contains | count | save | ping => rfl

/-- Two services that start with the same vault give the same answers to the same requests and have the same vault
after each of them, whether they save and whatever becomes of it, as long as they are not asked to save. A request
that is answered with a failure, be it one to save, leaves the vault as it was. -/
theorem saving_is_unseen (vaults : h.vault = g.vault) {p q : List (Supply × Request)}
    (alike : List.Forall₂ Alike p q) : s.history h p = t.history g q ∧
      ∀ (s : Service) supply (h : Holdings) r kind message,
        (s.handle supply h r).1 = .failed kind message → (s.handle supply h r).2.vault = h.vault := by
  constructor
  · refine (runOn_alike (R := fun h g => h.vault = g.vault) (fun h g p q same asked => ?_) vaults alike).1
    have answers : (s.handle p.1 h p.2).1 = (t.handle q.1 g q.2).1 :=
      asked.request ▸ handle_alike same asked.supply asked.unsaved
    have after : (s.handle p.1 h p.2).2.vault = (t.handle q.1 g q.2).2.vault := by
      rw [handle_vault, handle_vault, same, asked.request, Vault.after_alike _ asked.supply]
    exact ⟨Prod.ext answers after, after⟩
  · intro s supply h r kind message failed
    rw [handle_vault]
    exact Vault.after_of_not_changes (changes_of_failed failed) supply.draw

/-- A keeper that can save nothing, for no archive may ask for its cost; for examples. -/
def uselessKeeper : Keeper := ⟨⟨"vault"⟩, [113], ⟨0, 1, 1⟩⟩

def fewRequests (plan : Replacement.Plan) : List (Supply × Request) :=
  [⟨⟨.plain, .plain, plan⟩, .put .plain [1] .empty⟩, ⟨⟨.plain, .plain, plan⟩, .get .plain⟩,
    ⟨⟨.plain, .plain, plan⟩, .delete .plain⟩]

theorem saving_is_unseen_useless : ∃ v, Vault.load [112] ⟨8, 1, 1⟩ none .plain = .ok v ∧
    history ⟨uselessKeeper, true⟩ ⟨v, .empty .root⟩ (fewRequests .smooth) =
      history ⟨.plain, false⟩ ⟨v, .empty .root⟩ (fewRequests fun _ => some (.crash 0)) ∧
    ∃ kind message, (handle ⟨uselessKeeper, true⟩ ⟨.plain, .plain, .smooth⟩ ⟨v, .empty .root⟩ .save).1 =
        .failed kind message ∧
      (handle ⟨uselessKeeper, true⟩ ⟨.plain, .plain, .smooth⟩ ⟨v, .empty .root⟩ .save).2.vault = v := by
  obtain ⟨master, loaded⟩ := Vault.load_plain
  have alike : List.Forall₂ Alike (fewRequests .smooth) (fewRequests fun _ => some (.crash 0)) :=
    .cons ⟨⟨rfl, rfl⟩, rfl, nofun⟩ (.cons ⟨⟨rfl, rfl⟩, rfl, nofun⟩ (.cons ⟨⟨rfl, rfl⟩, rfl, nofun⟩ .nil))
  obtain ⟨unseen, kept⟩ := @saving_is_unseen ⟨uselessKeeper, true⟩ ⟨.plain, false⟩
    ⟨Vault.plain master, .empty .root⟩ ⟨Vault.plain master, .empty .root⟩ rfl _ _ alike
  exact ⟨_, loaded, unseen, _, _, rfl, kept _ _ _ _ _ _ rfl⟩

end Service

end Custody
