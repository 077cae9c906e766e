import Custody.Keeper
import Custody.Wire.Response

/-!
The service answers the requests of authenticated clients. What it changes is the vault and the disk;
a failed request leaves the vault as it was, and whether the file was saved after a change is nobody's
concern but the operator's.
-/

namespace Custody

structure Holdings where
  vault : Vault
  disk : Disk

/-- What chance, the clock and the disk supply to one request. -/
structure Supply where
  draw : Draw
  saving : Draw
  /-- What stops a save. -/
  plan : Replacement.Plan

structure Service where
  keeper : Keeper
  saveOnWrite : Bool

namespace Service

/-- Saves the vault and tells the number of its keys. A save that is cut short by a crash is reported
to nobody. -/
def save (s : Service) (supply : Supply) (h : Holdings) : Except Failure Nat × Holdings :=
  let o := s.keeper.save supply.plan h.vault.snapshot supply.saving h.disk
  let h := { h with disk := o.disk }
  match o.result with
  | some (.ok ()) => (.ok h.vault.count, h)
  | some (.error e) => (.error e, h)
  | none => (.error (.internal "Dump task failed"), h)

def afterChange (s : Service) (supply : Supply) (h : Holdings) : Holdings :=
  if s.saveOnWrite then (s.save supply h).2 else h

def perform (s : Service) (supply : Supply) (h : Holdings) :
    Request → Except Failure Response × Holdings
  | .auth _ => (.error (.invalidInput "AUTH is only valid as the first request"), h)
  | .put id material metadata =>
    match h.vault.put id material metadata supply.draw with
    | .error e => (.error e, h)
    | .ok (replaced, vault) =>
      (.ok (.stored replaced), s.afterChange supply { h with vault })
  | .get id => ((h.vault.get id).map .key, h)
  | .delete id =>
    let (existed, vault) := h.vault.delete id
    let h := { h with vault }
    (.ok (.deleted existed), if existed then s.afterChange supply h else h)
  | .list => (.ok (.keys h.vault.list), h)
  | .contains id => (.ok (.contains (h.vault.contains id)), h)
  | .count => (.ok (.count h.vault.count), h)
  | .clear =>
    let (removed, vault) := h.vault.clear
    let h := { h with vault }
    (.ok (.cleared removed), if 0 < removed then s.afterChange supply h else h)
  | .save =>
    match s.save supply h with
    | (.ok n, h) => (.ok (.saved n), h)
    | (.error e, h) => (.error e, h)
  | .ping => (.ok .pong, h)

def handle (s : Service) (supply : Supply) (h : Holdings) (r : Request) : Response × Holdings :=
  match s.perform supply h r with
  | (.ok response, h) => (response, h)
  | (.error e, h) => (.ofFailure e, h)

end Service

end Custody
