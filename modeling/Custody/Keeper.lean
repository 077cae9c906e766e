import Custody.Archive
import Custody.Disk.Replacement
import Custody.Vault

/-!
A keeper saves vaults to one file and brings them back. Saving replaces the file as a whole, so that a
save that is stopped leaves the file as it was or as it should be.
-/

namespace Custody

structure Keeper where
  path : Path
  password : Bytes
  cost : Cost

namespace Keeper

def describe (k : Keeper) : String :=
  "Dumper \x7b path: " ++ Text.quoted k.path.text ++ ", kdf_params: " ++ k.cost.describe ++ " \x7d"

/-- How saving went: the disks it passed through, the last one, and the result, which a crash leaves
open. -/
structure Saving where
  passed : List Disk
  disk : Disk
  result : Option (Except Failure Unit)

def save (k : Keeper) (plan : Replacement.Plan) (snapshot : Snapshot) (draw : Draw) (d : Disk) :
    Saving :=
  match Archive.encode snapshot k.password k.cost draw with
  | .error e => ⟨[], d, some (.error e)⟩
  | .ok b =>
    match Replacement.prepare d k.path draw.scratch b with
    | .error t => ⟨[], d, some (.error (.io t))⟩
    | .ok r =>
      let o := r.run plan d
      ⟨o.passed, o.disk, o.result.map fun r => r.mapError Failure.io⟩

def restore (k : Keeper) (d : Disk) (plan : Disk.ReadPlan := .smooth) :
    Except Failure (Option Snapshot) :=
  match d.readUnder plan k.path with
  | .ok b => (Archive.decode b k.password).map some
  | .error t => if t.kind = .notFound then .ok none else .error (.io t)

end Keeper

end Custody
