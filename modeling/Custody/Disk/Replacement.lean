import Custody.Disk.Basic

/-!
Replacing a file as a whole. The new content goes to a temporary file in the same folder, which then
takes the place of the old one in a single step. A replacement may be stopped at any step, by trouble
or by a crash; the disks it passes through are recorded.

A crash is a stop of the program and of nothing else: what was written is there afterwards. So the steps
that see to it that a file or a folder outlasts a loss of power do nothing to the disk here, but they
can fail.
-/

namespace Custody

/-- A file to be replaced: its path, the place of the temporary file, and the new content. -/
structure Replacement where
  target : Path
  scratch : Place
  content : Bytes

namespace Replacement

/-- Prepares to replace a file; the temporary file has a name of its own in the same folder. -/
def prepare (d : Disk) (target : Path) (name : String) (content : Bytes) :
    Except IoTrouble Replacement :=
  (d.beside target).map fun folder => ⟨target, folder.child name, content⟩

inductive Step where
  | create
  | write
  | sync
  | rename
  | openFolder
  | syncFolder
deriving DecidableEq, Repr

def steps : List Step := [.create, .write, .sync, .rename, .openFolder, .syncFolder]

/-- What may stop a step. Of a write, the first `written` bytes may have arrived. -/
inductive Incident where
  | trouble (t : IoTrouble) (written : Nat)
  | crash (written : Nat)

/-- Which steps are stopped, and by what. -/
abbrev Plan := Step → Option Incident

def Plan.smooth : Plan := fun _ => none

def act (r : Replacement) (d : Disk) : Step → Except IoTrouble Disk
  | .create =>
    if (d.at? r.scratch).isSome then .error (.system .alreadyExists)
    else .ok (d.set r.scratch (.file []))
  | .write => .ok (d.set r.scratch (.file r.content))
  | .rename => (d.slot r.target).bind (d.move r.scratch)
  | _ => .ok d

/-- What a step that is stopped has done to the disk. -/
def actPartly (r : Replacement) (d : Disk) (written : Nat) : Step → Disk
  | .write => d.set r.scratch (.file (r.content.take written))
  | _ => d

/-- Removes the temporary file, if the step that failed left one. -/
def cleanUp (r : Replacement) (d : Disk) : Step → Disk
  | .write | .sync | .rename => d.erase r.scratch
  | _ => d

/-- How a replacement went: the disks before the last one, the last one, and the result, which a
crash leaves open. -/
structure Outcome where
  passed : List Disk
  disk : Disk
  result : Option (Except IoTrouble Unit)

def Outcome.after (o : Outcome) (d : Disk) : Outcome := { o with passed := d :: o.passed }

def follow (plan : Plan) (r : Replacement) : List Step → Disk → Outcome
  | [], d => ⟨[], d, some (.ok ())⟩
  | s :: rest, d =>
    match plan s with
    | some (.crash written) => ⟨[d], r.actPartly d written s, none⟩
    | some (.trouble t written) =>
      let stopped := r.actPartly d written s
      ⟨[d, stopped], r.cleanUp stopped s, some (.error t)⟩
    | none =>
      match r.act d s with
      | .error t => ⟨[d], r.cleanUp d s, some (.error t)⟩
      | .ok next => (follow plan r rest next).after d

def run (plan : Plan) (r : Replacement) (d : Disk) : Outcome := r.follow plan steps d

end Replacement

end Custody
