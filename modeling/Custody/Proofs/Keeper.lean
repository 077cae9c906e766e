import Custody.Keeper
import Custody.Proofs.Archive
import Custody.Proofs.Disk.Replacement

/-!
What a keeper saved it brings back.
-/

namespace Custody.Keeper

variable {k : Keeper} {plan : Replacement.Plan} {s : Snapshot} {draw : Draw} {d : Disk}

theorem save_eq {b : Bytes} {folder : Place} (made : Archive.encode s k.password k.cost draw = .ok b)
    (beside : d.beside k.path = .ok folder) : k.save plan s draw d =
      let o := Replacement.run plan ⟨k.path, folder.child draw.scratch, b⟩ d
      ⟨o.passed, o.disk, o.result.map fun r => r.mapError Failure.io⟩ := by
  simp only [save, made, Replacement.prepare, beside, Except.map]

/-- A save is refused before the disk is touched, or it is the replacement of the file by an archive. -/
inductive Went (k : Keeper) (plan : Replacement.Plan) (s : Snapshot) (draw : Draw) (d : Disk) : Saving → Prop where
  | refused {f : Failure} (unwritten : ∀ b folder, Archive.encode s k.password k.cost draw = .ok b →
      d.beside k.path ≠ .ok folder) : Went k plan s draw d ⟨[], d, some (.error f)⟩
  | replaced {b : Bytes} {folder : Place} (made : Archive.encode s k.password k.cost draw = .ok b)
      (beside : d.beside k.path = .ok folder) : Went k plan s draw d
        (let o := Replacement.run plan ⟨k.path, folder.child draw.scratch, b⟩ d
        ⟨o.passed, o.disk, o.result.map fun r => r.mapError Failure.io⟩)

theorem save_went (k : Keeper) (plan : Replacement.Plan) (s : Snapshot) (draw : Draw) (d : Disk) :
    Went k plan s draw d (k.save plan s draw d) := by
  cases made : Archive.encode s k.password k.cost draw with
  | error f =>
    simp only [save, made]
    exact .refused fun b folder done => nomatch made.symm.trans done
  | ok b =>
    cases beside : d.beside k.path with
    | error t =>
      simp only [save, made, Replacement.prepare, beside, Except.map]
      exact .refused fun _ _ _ found => nomatch beside.symm.trans found
    | ok folder =>
      rw [save_eq made beside]
      exact .replaced made beside

theorem save_ok (done : (k.save plan s draw d).result = some (.ok ())) :
    ∃ (b : Bytes) (r : Replacement), Archive.encode s k.password k.cost draw = .ok b ∧ r.target = k.path ∧
      r.content = b ∧ (r.run plan d).result = some (.ok ()) ∧ (k.save plan s draw d).disk = (r.run plan d).disk := by
  have went := save_went k plan s draw d
  generalize k.save plan s draw d = saving at went done
  cases went with
  | refused => cases done
  | replaced made beside =>
    obtain ⟨result, found, mapped⟩ := Option.map_eq_some_iff.mp done
    cases result with
    | error t => cases mapped
    | ok _ => exact ⟨_, _, made, rfl, rfl, found, rfl⟩

theorem restore_eq (k : Keeper) (d : Disk) :
    k.restore d = match d.read k.path with
      | .ok b => (Archive.decode b k.password).map some
      | .error t => if t.kind = .notFound then .ok none else .error (.io t) := rfl

theorem restore_hindered {reads : Disk.ReadPlan} {hindrance : Disk.Hindrance}
    (hindered : reads k.path = some hindrance) (d : Disk) : k.restore d reads = .error (.io hindrance.trouble) := by
  simp only [restore, Disk.readUnder, hindered, hindrance.found, if_false]

theorem restore_save (sound : s.Sound) (done : (k.save plan s draw d).result = some (.ok ())) :
    k.restore (k.save plan s draw d).disk = .ok (some s) := by
  obtain ⟨b, r, made, target, content, ended, disk⟩ := save_ok done
  have read := Replacement.read_run ended
  rw [target, content] at read
  have decoded : Archive.decode b k.password = .ok s := Archive.decode_sealDocument sound (.refl _) made
  rw [restore_eq, disk, read]
  simp only [decoded, Except.map]

theorem save_smooth {b : Bytes} {folder q : Place} (made : Archive.encode s k.password k.cost draw = .ok b)
    (beside : d.beside k.path = .ok folder) (unused : d.at? (folder.child draw.scratch) = none)
    (free : d.slot k.path = .ok q) : (k.save .smooth s draw d).result = some (.ok ()) := by
  have done := @Replacement.run_smooth ⟨k.path, folder.child draw.scratch, b⟩ d q unused free
  simp only [save_eq made beside, done]
  rfl

theorem save_ends (uncrashed : ∀ step written, plan step ≠ some (.crash written)) :
    ∃ r, (k.save plan s draw d).result = some r := by
  have went := save_went k plan s draw d
  generalize k.save plan s draw d = saving at went
  cases went with
  | refused => exact ⟨_, rfl⟩
  | replaced =>
    obtain ⟨r, ended⟩ := Option.ne_none_iff_exists'.mp (Replacement.follow_ends uncrashed)
    exact ⟨_, congrArg (Option.map _) ended⟩

theorem sound_of_restore (read : k.restore d = .ok (some s)) : s.Sound := by
  rw [restore_eq] at read
  split at read
  · obtain ⟨found, decoded, same⟩ := Except.map_eq_ok.mp read
    cases same
    exact Archive.sound_of_decode decoded
  · split at read
    · cases read
    · cases read

def plain : Keeper := ⟨⟨"vault"⟩, [113], ⟨8, 1, 1⟩⟩

end Custody.Keeper
