import Custody.Proofs.Keeper
import Custody.Proofs.Vault.Reopening

/-!
Saves that are stopped. Whatever stops a save, and however many are stopped one after another, the file is the
whole of one archive or what it was. A save that reports trouble leaves the disk as it was, unless the trouble
came when the new file stood in its place.
-/

namespace Custody.Keeper

open Replacement (Plan)

variable {k : Keeper} {plan : Plan} {s : Snapshot} {draw : Draw} {d e : Disk}

/-- All disks that a save leaves for anyone to see, the last one included. A crash may come in the middle of a
write, so they include every part of a write that is not finished. -/
def Saving.moments (s : Saving) : List Disk := s.passed ++ [s.disk]

theorem scratch_apart {p : Path} {folder q : Place} {name : String} (apart : p.names.getLast? ≠ some name)
    (beside : d.beside p = .ok folder) (located : d.locate p = .ok (.entry q)) : (folder.child name).text ≠ q.text := by
  obtain ⟨last, named, rfl⟩ := Disk.entry_of_beside beside located
  intro same
  exact apart (named.trans (congrArg some (Place.child_text_inj same).symm))

theorem save_moments (apart : k.path.names.getLast? ≠ some draw.scratch) (member : e ∈ (k.save plan s draw d).moments) :
    e.content? k.path = d.content? k.path ∨
      ∃ b, Archive.encode s k.password k.cost draw = .ok b ∧ e.content? k.path = some b := by
  have went := save_went k plan s draw d
  generalize k.save plan s draw d = saving at went member
  cases went with
  | refused =>
    cases List.mem_singleton.mp member
    exact .inl rfl
  | @replaced b folder made beside =>
    let r : Replacement := ⟨k.path, folder.child draw.scratch, b⟩
    have ended := r.run_ended plan d
    have drafts (x : Disk) (drafting : r.Drafting d x) : x.content? k.path = d.content? k.path := by
      cases drafting with
      | none => rfl
      | draft unused c =>
        exact Disk.content?_set_other (by simp [unused]) fun q located => scratch_apart apart beside located
    change e ∈ (r.run plan d).moments at member
    generalize r.run plan d = o at ended member
    cases ended with
    | undone early before =>
      rcases List.mem_append.mp member with first | last
      · exact .inl (drafts e (before e first))
      · cases List.mem_singleton.mp last
        exact .inl rfl
    | crashed _ before last =>
      rcases List.mem_append.mp member with first | crash
      · exact .inl (drafts e (before e first))
      · cases List.mem_singleton.mp crash
        exact .inl (drafts _ last)
    | @placed first later q result late before still slot troubled =>
      have found : (r.placed d q).content? k.path = some b := Disk.content?_set_self slot
      rcases List.mem_append.mp member with passed | last
      · rcases List.mem_append.mp passed with early | after
        · exact .inl (drafts e (before e early))
        · exact .inr ⟨b, made, still e after ▸ found⟩
      · cases List.mem_singleton.mp last
        exact .inr ⟨b, made, found⟩

structure Attempt where
  password : Bytes
  cost : Cost
  snapshot : Snapshot
  draw : Draw
  plan : Plan

namespace Attempt

def archive (a : Attempt) : Except Failure Bytes := Archive.encode a.snapshot a.password a.cost a.draw

def saving (path : Path) (d : Disk) (a : Attempt) : Saving :=
  (Keeper.mk path a.password a.cost).save a.plan a.snapshot a.draw d

def after (path : Path) (d : Disk) (row : List Attempt) : Disk := row.foldl (fun d a => (a.saving path d).disk) d

def moments (path : Path) (d : Disk) : List Attempt → List Disk
  | [] => [d]
  | a :: rest => (a.saving path d).moments ++ moments path (a.saving path d).disk rest

/-- A path holds what it held before, or the whole archive of one of the attempts. -/
def Whole (before : Option Bytes) (row : List Attempt) (now : Option Bytes) : Prop :=
  now = before ∨ ∃ a ∈ row, ∃ b, a.archive = .ok b ∧ now = some b

variable {path : Path} {row : List Attempt} {a : Attempt}

theorem Whole.mono {before now : Option Bytes} {more : List Attempt} (whole : Whole before row now)
    (subset : row ⊆ more) : Whole before more now := by
  rcases whole with same | ⟨a, member, archived⟩
  · exact .inl same
  · exact .inr ⟨a, subset member, archived⟩

theorem Whole.trans {before between now : Option Bytes} (first : Whole before row between)
    (later : Whole between row now) : Whole before row now := by
  rcases later with rfl | archived
  · exact first
  · exact .inr archived

theorem saving_whole (apart : path.names.getLast? ≠ some a.draw.scratch) (moment : e ∈ (a.saving path d).moments) :
    Whole (d.content? path) [a] (e.content? path) := by
  have one := @save_moments ⟨path, a.password, a.cost⟩ a.plan a.snapshot a.draw d e apart moment
  rcases one with same | ⟨b, made, found⟩
  · exact .inl same
  · exact .inr ⟨a, List.mem_singleton_self a, b, made, found⟩

theorem moments_whole (apart : ∀ a ∈ row, path.names.getLast? ≠ some a.draw.scratch)
    (moment : e ∈ moments path d row) : Whole (d.content? path) row (e.content? path) := by
  induction row generalizing d with
  | nil =>
    cases List.mem_singleton.mp moment
    exact .inl rfl
  | cons a row ih =>
    obtain ⟨here, others⟩ := List.forall_mem_cons.mp apart
    have first {x : Disk} (moment : x ∈ (a.saving path d).moments) :
        Whole (d.content? path) (a :: row) (x.content? path) :=
      (saving_whole here moment).mono (List.prefix_append [a] row).subset
    rcases List.mem_append.mp moment with now | afterwards
    · exact first now
    · -- the rest starts from the last disk of the first save
      have last : (a.saving path d).disk ∈ (a.saving path d).moments :=
        List.mem_append_right _ (List.mem_singleton_self _)
      exact (first last).trans ((ih others afterwards).mono (List.subset_cons_self a row))

theorem saving_ok (done : (a.saving path d).result = some (.ok ())) :
    ∃ b, a.archive = .ok b ∧ (a.saving path d).disk.content? path = some b := by
  obtain ⟨b, r, made, target, content, ended, disk⟩ := save_ok done
  have read := Replacement.read_run ended
  rw [target, content, ← disk] at read
  exact ⟨b, made, congrArg Except.toOption read⟩

end Attempt

open Attempt in
/-- Over any row of saves to one path, each of them stopped at any step by trouble or a crash, or not at all: at
every moment the path holds what it held at first or the whole archive of one of the saves; and in the course of
each save, what it held just before or the whole archive of this one, and this archive if the save succeeds. -/
theorem file_is_always_whole {path : Path} {row : List Attempt} (d : Disk)
    (apart : ∀ a ∈ row, path.names.getLast? ≠ some a.draw.scratch) :
    (∀ e ∈ moments path d row, Whole (d.content? path) row (e.content? path)) ∧
      ∀ before a later, row = before ++ a :: later →
        let start := after path d before
        let saving := a.saving path start
        (∀ e ∈ saving.moments, Whole (start.content? path) [a] (e.content? path)) ∧
          (saving.result = some (.ok ()) → ∃ b, a.archive = .ok b ∧ saving.disk.content? path = some b) := by
  constructor
  · intro e moment
    exact moments_whole apart moment
  · intro before a later split
    have member : a ∈ row := by simp [split]
    exact ⟨fun e moment => saving_whole (apart a member) moment, saving_ok⟩

def smallSnapshot : Snapshot := ⟨⟨Draw.plain.salt, ⟨8, 1, 1⟩, [], Draw.plain.nonce, Draw.plain.now⟩, .empty⟩

def stopAt (step : Replacement.Step) (incident : Replacement.Incident) : Plan :=
  fun s => if s = step then some incident else none

def diskFails : IoTrouble := .reported .other "Input/output error (os error 5)"

def twoStopped : List Attempt :=
  [⟨[113], ⟨8, 1, 1⟩, smallSnapshot, .plain, stopAt .write (.crash 3)⟩,
    ⟨[113], ⟨8, 1, 1⟩, smallSnapshot, { Draw.plain with scratch := "other" },
      stopAt .syncFolder (.trouble diskFails 0)⟩]

theorem file_is_always_whole_stopped :
    (∀ a ∈ twoStopped, (Path.names ⟨"vault"⟩).getLast? ≠ some a.draw.scratch) ∧
      ∀ e ∈ Attempt.moments ⟨"vault"⟩ (.empty .root) twoStopped,
        Attempt.Whole ((Disk.empty .root).content? ⟨"vault"⟩) twoStopped (e.content? ⟨"vault"⟩) := by
  have apart : ∀ a ∈ twoStopped, (Path.names ⟨"vault"⟩).getLast? ≠ some a.draw.scratch := by decide
  exact ⟨apart, (file_is_always_whole (.empty .root) apart).1⟩

def Tidy (k : Keeper) (draw : Draw) (before after : Disk) : Prop :=
  ∀ folder, before.beside k.path = .ok folder →
    after.at? (folder.child draw.scratch) = before.at? (folder.child draw.scratch)

/-- The path holds what it held before, and no temporary file is left. -/
def Undone (k : Keeper) (draw : Draw) (before after : Disk) : Prop :=
  after.content? k.path = before.content? k.path ∧ k.Tidy draw before after

/-- The archive takes the place of the file: it can be made, and nothing stops the steps up to the renaming. -/
def Reaches (k : Keeper) (plan : Plan) (s : Snapshot) (draw : Draw) (d : Disk) : Prop :=
  ∃ b folder, Archive.encode s k.password k.cost draw = .ok b ∧ d.beside k.path = .ok folder ∧
    Replacement.Reaches plan ⟨k.path, folder.child draw.scratch, b⟩ d

instance : Decidable (k.Reaches plan s draw d) :=
  match made : Archive.encode s k.password k.cost draw, beside : d.beside k.path with
  | .ok b, .ok folder =>
    decidable_of_iff (Replacement.Reaches plan ⟨k.path, folder.child draw.scratch, b⟩ d)
      ⟨fun reaches => ⟨b, folder, made, beside, reaches⟩, fun ⟨_, _, same, there, reaches⟩ => by
        cases made.symm.trans same
        cases beside.symm.trans there
        exact reaches⟩
  | .error _, _ => isFalse fun ⟨_, _, same, _⟩ => nomatch made.symm.trans same
  | .ok _, .error _ => isFalse fun ⟨_, _, _, there, _⟩ => nomatch beside.symm.trans there

theorem reaches_of_ok (done : (k.save plan s draw d).result = some (.ok ())) : k.Reaches plan s draw d := by
  have went := save_went k plan s draw d
  generalize k.save plan s draw d = saving at went done
  cases went with
  | refused => cases done
  | @replaced b folder made beside =>
    have ended := Replacement.run_ended plan ⟨k.path, folder.child draw.scratch, b⟩ d
    simp only at done
    generalize Replacement.run plan ⟨k.path, folder.child draw.scratch, b⟩ d = o at ended done
    cases ended with
    | undone | crashed => cases done
    | placed late => exact ⟨b, folder, made, beside, late⟩

theorem save_unreached {f : Failure} (early : ¬k.Reaches plan s draw d)
    (failed : (k.save plan s draw d).result = some (.error f)) : (k.save plan s draw d).disk = d := by
  have went := save_went k plan s draw d
  generalize k.save plan s draw d = saving at went failed
  cases went with
  | refused => rfl
  | @replaced b folder made beside =>
    have ended := Replacement.run_ended plan ⟨k.path, folder.child draw.scratch, b⟩ d
    simp only at failed ⊢
    generalize Replacement.run plan ⟨k.path, folder.child draw.scratch, b⟩ d = o at ended failed
    cases ended with
    | undone => rfl
    | crashed => cases failed
    | placed late => exact absurd ⟨b, folder, made, beside, late⟩ early

theorem save_reached (reaches : k.Reaches plan s draw d) : ∃ b q, Archive.encode s k.password k.cost draw = .ok b ∧
    d.slot k.path = .ok q ∧ (k.save plan s draw d).disk = d.set q (.file b) ∧
    ∀ f, (k.save plan s draw d).result = some (.error f) →
      ∃ step ∈ Replacement.settling, ∃ t n, plan step = some (.trouble t n) ∧ f = .io t := by
  obtain ⟨b, folder, made, beside, reaches⟩ := reaches
  have done := Replacement.follow_making_ok.mpr reaches
  have ended := Replacement.run_ended plan ⟨k.path, folder.child draw.scratch, b⟩ d
  rw [save_eq made beside]
  simp only
  generalize Replacement.run plan ⟨k.path, folder.child draw.scratch, b⟩ d = o at ended
  cases ended with
  | undone early => exact absurd reaches early
  | crashed early => exact absurd reaches early
  | @placed first later q result late _ _ slot troubled =>
    refine ⟨b, q, made, slot, rfl, fun f failed => ?_⟩
    obtain ⟨r, ended, mapped⟩ := Option.map_eq_some_iff.mp failed
    cases r with
    | ok _ => cases mapped
    | error t =>
      cases mapped
      obtain ⟨step, member, n, planned⟩ := troubled t ended
      exact ⟨step, member, t, n, planned, rfl⟩

theorem restore_reached (sound : s.Sound) (reaches : k.Reaches plan s draw d) :
    k.restore (k.save plan s draw d).disk = .ok (some s) := by
  obtain ⟨b, q, made, slot, disk, -⟩ := save_reached reaches
  have read : (k.save plan s draw d).disk.read k.path = .ok b := by
    rw [disk]
    exact Disk.read_of_content? (Disk.content?_set_self slot)
  have decoded : Archive.decode b k.password = .ok s := Archive.decode_sealDocument sound (.refl _) made
  rw [restore_eq, read]
  simp only [decoded, Except.map]

/-- A save that reports trouble has left the path as it was exactly if the trouble came before the archive took the
place of the file, or if the file was that very archive already. Before that nothing at all has changed; after it
the trouble is with the folder, the path holds the archive, and no temporary file is left either. -/
theorem failed_save_undone_iff {f : Failure} (failed : (k.save plan s draw d).result = some (.error f)) :
    let after := (k.save plan s draw d).disk
    (k.Undone draw d after ↔ ¬k.Reaches plan s draw d ∨
      ∃ b, Archive.encode s k.password k.cost draw = .ok b ∧ d.content? k.path = some b) ∧
    (¬k.Reaches plan s draw d → after = d) ∧
    (k.Reaches plan s draw d →
      (∃ step ∈ Replacement.settling, ∃ t n, plan step = some (.trouble t n) ∧ f = .io t) ∧
      (∃ b, Archive.encode s k.password k.cost draw = .ok b ∧ after.content? k.path = some b) ∧
      (k.path.names.getLast? ≠ some draw.scratch → k.Tidy draw d after)) := by
  intro after
  have unchanged (same : after = d) : k.Undone draw d after := by
    rw [same]
    exact ⟨rfl, fun _ _ => rfl⟩
  by_cases reaches : k.Reaches plan s draw d
  · obtain ⟨b, q, made, slot, disk, troubled⟩ := save_reached reaches
    have found : after.content? k.path = some b := by
      rw [show after = _ from disk]
      exact Disk.content?_set_self slot
    obtain ⟨located, -, free⟩ := Disk.slot_eq_ok.mp slot
    have tidy (apart : k.path.names.getLast? ≠ some draw.scratch) : k.Tidy draw d after := by
      intro folder beside
      rw [show after = _ from disk]
      exact Disk.at?_set_other (scratch_apart apart beside located).symm
    refine ⟨⟨fun undone => .inr ⟨b, made, undone.1.symm.trans found⟩, ?_⟩, fun early => absurd reaches early,
      fun _ => ⟨troubled f failed, ⟨b, made, found⟩, tidy⟩⟩
    rintro (early | ⟨c, same, held⟩)
    · exact absurd reaches early
    · -- the archive is put where it stands already
      cases made.symm.trans same
      obtain ⟨x, leads, -, stands⟩ := Disk.content?_eq_some.mp held
      cases located.symm.trans leads
      exact unchanged (disk.trans (Disk.set_eq_self (Disk.ne_root_of_free free) stands))
  · have same : after = d := save_unreached reaches failed
    exact ⟨iff_of_true (unchanged same) (.inl reaches), fun _ => same, fun late => absurd late reaches⟩

theorem archive_small :
    ∃ b, Archive.encode smallSnapshot [113] ⟨8, 1, 1⟩ .plain = .ok b ∧ Archive.headerLength ≤ b.length := by
  obtain ⟨key, derived⟩ : ∃ key, Secret.deriveKey [113] Draw.plain.salt ⟨8, 1, 1⟩ = .ok key := ⟨_, rfl⟩
  refine ⟨_, Archive.sealDocument_eq (by decide) derived (by decide +kernel), ?_⟩
  simp only [Archive.assemble, List.length_append, Archive.length_preamble, Bytes.length_bigEndian,
    Draw.plain.nonce.property, Archive.headerLength]
  omega

def filed : Disk := (Disk.empty .root).install Keeper.plain.path [0]

theorem save_filed {plan : Plan} {t : IoTrouble} (troubled : ∀ b,
    (Replacement.run plan ⟨Keeper.plain.path, Place.root.child "scratch", b⟩ filed).result = some (.error t)) :
    (Keeper.plain.save plan smallSnapshot .plain filed).result = some (.error (.io t)) := by
  obtain ⟨b, made, -⟩ := archive_small
  have beside : filed.beside Keeper.plain.path = .ok .root := rfl
  have scratch : Draw.plain.scratch = "scratch" := rfl
  simp only [save_eq made beside, scratch, troubled]
  rfl

theorem failed_save_undone_iff_write :
    let plan := stopAt .write (.trouble diskFails 3)
    let saving := Keeper.plain.save plan smallSnapshot .plain filed
    saving.result = some (.error (.io diskFails)) ∧ Keeper.plain.Undone .plain filed saving.disk := by
  intro plan saving
  have failed : saving.result = some (.error (.io diskFails)) := save_filed fun b => rfl
  have early : ¬Keeper.plain.Reaches plan smallSnapshot .plain filed :=
    fun ⟨_, _, _, _, reaches⟩ => nomatch reaches.smooth .write (by decide)
  exact ⟨failed, (failed_save_undone_iff failed).1.mpr (.inl early)⟩

/-- The folder cannot be synced when the new archive stands in its place already: the save reports trouble, and the
file that was there before is lost. -/
theorem unsynced_save_not_undone :
    let saving := Keeper.plain.save (stopAt .syncFolder (.trouble diskFails 0)) smallSnapshot .plain filed
    saving.result = some (.error (.io diskFails)) ∧ filed.content? Keeper.plain.path = some [0] ∧
      (∃ b, Archive.encode smallSnapshot [113] ⟨8, 1, 1⟩ .plain = .ok b ∧ b ≠ [0] ∧
        saving.disk.content? Keeper.plain.path = some b) ∧ ¬Keeper.plain.Undone .plain filed saving.disk := by
  intro saving
  have before : filed.content? Keeper.plain.path = some [0] := by decide +kernel
  have free : filed.slot Keeper.plain.path = .ok (Place.root.child "vault") :=
    Disk.slot_eq_ok.mpr ⟨rfl, rfl, by decide +kernel⟩
  have unused : filed.at? (Place.root.child "scratch") = none := by decide +kernel
  have reached (b : Bytes) : Replacement.Reaches (stopAt .syncFolder (.trouble diskFails 0))
      ⟨Keeper.plain.path, Place.root.child "scratch", b⟩ filed :=
    ⟨by simp [Replacement.making, stopAt], unused, _, free⟩
  have failed : saving.result = some (.error (.io diskFails)) :=
    save_filed fun b => Replacement.run_of_reaches (reached b)
  obtain ⟨b, made, long⟩ := archive_small
  obtain ⟨c, q, same, slot, disk, -⟩ := save_reached (k := .plain) ⟨b, .root, made, rfl, reached b⟩
  cases made.symm.trans same
  have after : saving.disk.content? Keeper.plain.path = some b := by
    rw [show saving.disk = _ from disk]
    exact Disk.content?_set_self slot
  have other : b ≠ [0] := by
    rintro rfl
    exact absurd long (by decide)
  refine ⟨failed, before, ⟨b, made, other, after⟩, fun undone => ?_⟩
  exact other (Option.some.inj (after.symm.trans (undone.1.trans before)))

end Custody.Keeper
