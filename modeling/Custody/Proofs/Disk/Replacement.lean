import Custody.Disk.Replacement
import Custody.Proofs.Disk.Basic

/-!
What a replacement does to the disk. Up to the renaming nothing changes but the temporary file, and trouble takes
that away again; from the renaming on the new file stands in its place, whatever stops the steps that are left.
-/

namespace Custody.Replacement

variable {plan : Plan} {r : Replacement} {d e x : Disk} {s : Step} {rest : List Step} {o : Outcome}
  {b : Bytes}

def Outcome.moments (o : Outcome) : List Disk := o.passed ++ [o.disk]

inductive Taken (plan : Plan) (r : Replacement) (s : Step) (rest : List Step) (d : Disk) : Outcome → Prop where
  | crashed {written : Nat} (planned : plan s = some (.crash written)) :
      Taken plan r s rest d ⟨[d], r.actPartly d written s, none⟩
  | troubled {t : IoTrouble} {written : Nat} (planned : plan s = some (.trouble t written)) :
      Taken plan r s rest d
        ⟨[d, r.actPartly d written s], r.cleanUp (r.actPartly d written s) s, some (.error t)⟩
  | refused {t : IoTrouble} (planned : plan s = none) (acted : r.act d s = .error t) :
      Taken plan r s rest d ⟨[d], r.cleanUp d s, some (.error t)⟩
  | went {next : Disk} (planned : plan s = none) (acted : r.act d s = .ok next) :
      Taken plan r s rest d ((follow plan r rest next).after d)

theorem follow_taken (plan : Plan) (r : Replacement) (s : Step) (rest : List Step) (d : Disk) :
    Taken plan r s rest d (follow plan r (s :: rest) d) := by
  rw [follow]
  cases planned : plan s with
  | some incident =>
    cases incident with
    | crash written => exact .crashed planned
    | trouble t written => exact .troubled planned
  | none =>
    cases acted : r.act d s with
    | error t => exact .refused planned acted
    | ok next => exact .went planned acted

theorem follow_went (planned : plan s = none) (acted : r.act d s = .ok e) :
    follow plan r (s :: rest) d = (follow plan r rest e).after d := by
  rw [follow]
  simp only [planned, acted]

def Outcome.andThen (o : Outcome) (later : Disk → Outcome) : Outcome :=
  match o.result with
  | some (.ok ()) =>
    let p := later o.disk
    ⟨o.passed ++ p.passed, p.disk, p.result⟩
  | _ => o

theorem follow_append (first later : List Step) :
    follow plan r (first ++ later) d = (follow plan r first d).andThen (follow plan r later) := by
  induction first generalizing d with
  | nil => rfl
  | cons s first ih =>
    have taken := follow_taken plan r s first d
    generalize found : follow plan r (s :: first) d = o at taken
    cases taken with
    | crashed planned | troubled planned =>
      rw [List.cons_append, follow, planned]
      rfl
    | refused planned acted =>
      rw [List.cons_append, follow]
      simp only [planned, acted]
      rfl
    | went planned acted =>
      rw [List.cons_append, follow_went planned acted, ih]
      simp only [Outcome.andThen, Outcome.after]
      split <;> rfl

def making : List Step := [.create, .write, .sync, .rename]

def settling : List Step := [.openFolder, .syncFolder]

def draft (r : Replacement) (d : Disk) (b : Bytes) : Disk := d.set r.scratch (.file b)

def placed (r : Replacement) (d : Disk) (q : Place) : Disk := d.set q (.file r.content)

/-- The disk is as it was, but for a draft. -/
inductive Drafting (r : Replacement) (d : Disk) : Disk → Prop where
  | none : Drafting r d d
  | draft (unused : d.at? r.scratch = .none) (b : Bytes) : Drafting r d (r.draft d b)

theorem act_create : r.act d .create = .ok e ↔ d.at? r.scratch = none ∧ e = r.draft d [] := by
  cases stands : d.at? r.scratch with
  | none => simp [act, stands, draft, eq_comm]
  | some n => simp [act, stands]

theorem act_write : r.act (r.draft d b) .write = .ok (r.draft d r.content) :=
  congrArg Except.ok (Disk.set_set d r.scratch _ _)

theorem actPartly_write {n : Nat} : r.actPartly (r.draft d b) n .write = r.draft d (r.content.take n) :=
  Disk.set_set d r.scratch _ _

theorem at?_draft (unused : d.at? r.scratch = none) : (r.draft d b).at? r.scratch = some (.file b) := by
  rw [draft, Disk.at?_set (Disk.ne_root_of_free (d := d) (by simp [unused])), if_pos rfl]

theorem act_rename (unused : d.at? r.scratch = none) : r.act (r.draft d r.content) .rename = .ok e ↔
    ∃ q, d.slot r.target = .ok q ∧ e = r.placed d q := by
  have slot (q : Place) : (r.draft d r.content).slot r.target = .ok q ↔ d.slot r.target = .ok q :=
    Disk.slot_set_file unused
  have moved (q : Place) : (r.draft d r.content).move r.scratch q = .ok (r.placed d q) := by
    rw [Disk.move, at?_draft unused, draft, Disk.erase_set unused]
    rfl
  rw [act, Except.bind_eq_ok]
  refine exists_congr fun q => and_congr (slot q) ?_
  rw [moved, Except.ok.injEq, eq_comm]

theorem cleanUp_draft (unused : d.at? r.scratch = none) (made : s ∈ [.write, .sync, .rename]) :
    r.cleanUp (r.draft d b) s = d := by
  have erased : (r.draft d b).erase r.scratch = d := Disk.erase_set unused
  cases s with
  | write | sync | rename => exact erased
  | create | openFolder | syncFolder => simp at made

/-- How the steps of the making end: undone, stopped by a crash, or with the new file in its place. -/
inductive Made (r : Replacement) (d : Disk) : Outcome → Prop where
  | undone {passed : List Disk} {t : IoTrouble} (drafts : ∀ x ∈ passed, r.Drafting d x) :
      Made r d ⟨passed, d, some (.error t)⟩
  | crashed {passed : List Disk} {e : Disk} (drafts : ∀ x ∈ passed, r.Drafting d x) (last : r.Drafting d e) :
      Made r d ⟨passed, e, none⟩
  | placed {passed : List Disk} {q : Place} (drafts : ∀ x ∈ passed, r.Drafting d x) (unused : d.at? r.scratch = none)
      (slot : d.slot r.target = .ok q) : Made r d ⟨passed, r.placed d q, some (.ok ())⟩

theorem Made.after (made : r.Made d o) (drafting : r.Drafting d x) : r.Made d (o.after x) := by
  cases made with
  | undone drafts => exact .undone (List.forall_mem_cons.mpr ⟨drafting, drafts⟩)
  | crashed drafts last => exact .crashed (List.forall_mem_cons.mpr ⟨drafting, drafts⟩) last
  | placed drafts unused slot => exact .placed (List.forall_mem_cons.mpr ⟨drafting, drafts⟩) unused slot

theorem Made.step (drafting : r.Drafting d x) (partly : ∀ n, r.Drafting d (r.actPartly x n s))
    (withdrawn : ∀ n, r.cleanUp (r.actPartly x n s) s = d) (undone : r.cleanUp x s = d)
    (on : ∀ next, r.act x s = .ok next → r.Made d (follow plan r rest next)) :
    r.Made d (follow plan r (s :: rest) x) := by
  have taken := follow_taken plan r s rest x
  generalize follow plan r (s :: rest) x = o at taken
  cases taken with
  | crashed => exact .crashed (List.forall_mem_singleton.mpr drafting) (partly _)
  | troubled =>
    rw [withdrawn]
    exact .undone (List.forall_mem_cons.mpr ⟨drafting, List.forall_mem_singleton.mpr (partly _)⟩)
  | refused =>
    rw [undone]
    exact .undone (List.forall_mem_singleton.mpr drafting)
  | went planned acted => exact (on _ acted).after drafting

theorem follow_making (plan : Plan) (r : Replacement) (d : Disk) : r.Made d (follow plan r making d) := by
  refine .step .none (fun _ => .none) (fun _ => rfl) rfl fun next created => ?_
  obtain ⟨unused, rfl⟩ := act_create.mp created
  have drafting (b : Bytes) : r.Drafting d (r.draft d b) := .draft unused b
  have undone {s : Step} (made : s ∈ [.write, .sync, .rename]) (b : Bytes) :
      r.cleanUp (r.draft d b) s = d := cleanUp_draft unused made
  refine .step (drafting _) (fun n => ?_) (fun n => ?_) (undone (by decide) _) fun next wrote => ?_
  · rw [actPartly_write]
    exact drafting _
  · rw [actPartly_write]
    exact undone (by decide) _
  · cases act_write.symm.trans wrote
    refine .step (drafting _) (fun _ => drafting _) (fun _ => undone (by decide) _) (undone (by decide) _)
      fun next synced => ?_
    cases synced
    refine .step (drafting _) (fun _ => drafting _) (fun _ => undone (by decide) _) (undone (by decide) _)
      fun next renamed => ?_
    obtain ⟨q, slot, rfl⟩ := (act_rename unused).mp renamed
    exact .placed (fun x member => absurd member List.not_mem_nil) unused slot

structure Reaches (plan : Plan) (r : Replacement) (d : Disk) : Prop where
  smooth : ∀ s ∈ making, plan s = none
  unused : d.at? r.scratch = none
  free : ∃ q, d.slot r.target = .ok q

instance (plan : Plan) (r : Replacement) (d : Disk) : Decidable (r.Reaches plan d) :=
  decidable_of_iff
    ((∀ s ∈ making, plan s = none) ∧ d.at? r.scratch = none ∧ (d.slot r.target).isOk = true)
    ⟨fun ⟨smooth, unused, free⟩ => ⟨smooth, unused, Except.exists_of_isOk free⟩,
      fun ⟨smooth, unused, _, free⟩ => ⟨smooth, unused, by rw [free]; rfl⟩⟩

theorem follow_ends (uncrashed : ∀ s written, plan s ≠ some (.crash written)) :
    (follow plan r rest d).result ≠ none := by
  induction rest generalizing d with
  | nil => exact nofun
  | cons s rest ih =>
    have taken := follow_taken plan r s rest d
    generalize follow plan r (s :: rest) d = o at taken
    cases taken with
    | crashed planned => exact absurd planned (uncrashed s _)
    | troubled | refused => exact nofun
    | went => exact ih

theorem planned_of_follow_ok (done : (follow plan r rest d).result = some (.ok ())) : ∀ s ∈ rest, plan s = none := by
  induction rest generalizing d with
  | nil => exact fun s member => absurd member List.not_mem_nil
  | cons s rest ih =>
    have taken := follow_taken plan r s rest d
    generalize follow plan r (s :: rest) d = o at taken done
    cases taken with
    | crashed | troubled | refused => cases done
    | went planned acted => exact List.forall_mem_cons.mpr ⟨planned, ih done⟩

theorem follow_making_ok : (follow plan r making d).result = some (.ok ()) ↔ r.Reaches plan d := by
  constructor
  · intro done
    have made := follow_making plan r d
    have smooth := planned_of_follow_ok done
    generalize follow plan r making d = o at made done
    cases made with
    | undone | crashed => cases done
    | placed drafts unused slot => exact ⟨smooth, unused, _, slot⟩
  · rintro ⟨smooth, unused, q, slot⟩
    have planned {s : Step} (member : s ∈ making) : plan s = none := smooth s member
    have created := act_create.mpr ⟨unused, rfl⟩
    have renamed := (act_rename unused).mpr ⟨q, slot, rfl⟩
    have synced : r.act (r.draft d r.content) .sync = .ok (r.draft d r.content) := rfl
    rw [making, follow_went (planned (by decide)) created, follow_went (planned (by decide)) act_write,
      follow_went (planned (by decide)) synced, follow_went (planned (by decide)) renamed]
    rfl

theorem settling_still (late : s ∈ settling) (d : Disk) :
    r.act d s = .ok d ∧ (∀ n, r.actPartly d n s = d) ∧ r.cleanUp d s = d := by
  cases s with
  | openFolder | syncFolder => exact ⟨rfl, fun _ => rfl, rfl⟩
  | create | write | sync | rename => simp [settling] at late

/-- The last steps leave the disk as it is; they fail only if there is trouble with the folder. -/
theorem follow_settling (plan : Plan) (r : Replacement) (d : Disk) {row : List Step} (late : ∀ s ∈ row, s ∈ settling) :
    ∃ passed result, follow plan r row d = ⟨passed, d, result⟩ ∧ (∀ x ∈ passed, x = d) ∧
      ∀ t, result = some (.error t) → ∃ s ∈ settling, ∃ n, plan s = some (.trouble t n) := by
  induction row with
  | nil => exact ⟨[], _, rfl, nofun, nofun⟩
  | cons s row ih =>
    obtain ⟨first, others⟩ := List.forall_mem_cons.mp late
    obtain ⟨acts, partly, cleaned⟩ := settling_still (r := r) first d
    have taken := follow_taken plan r s row d
    generalize follow plan r (s :: row) d = o at taken
    cases taken with
    | crashed =>
      rw [partly]
      exact ⟨_, _, rfl, List.forall_mem_singleton.mpr rfl, nofun⟩
    | troubled planned =>
      rw [partly, cleaned]
      refine ⟨_, _, rfl, by simp, fun t same => ?_⟩
      cases same
      exact ⟨s, first, _, planned⟩
    | refused planned acted => cases acts.symm.trans acted
    | went planned acted =>
      cases acts.symm.trans acted
      obtain ⟨passed, result, followed, same, troubled⟩ := ih others
      exact ⟨d :: passed, result, by rw [followed]; rfl, List.forall_mem_cons.mpr ⟨rfl, same⟩, troubled⟩

/-- How a replacement ends, and which disks it passes through. -/
inductive Ended (plan : Plan) (r : Replacement) (d : Disk) : Outcome → Prop where
  | undone {passed : List Disk} {t : IoTrouble} (early : ¬r.Reaches plan d) (drafts : ∀ x ∈ passed, r.Drafting d x) :
      Ended plan r d ⟨passed, d, some (.error t)⟩
  | crashed {passed : List Disk} {e : Disk} (early : ¬r.Reaches plan d) (drafts : ∀ x ∈ passed, r.Drafting d x)
      (last : r.Drafting d e) :
      Ended plan r d ⟨passed, e, none⟩
  | placed {first later : List Disk} {q : Place} {result : Option (Except IoTrouble Unit)} (late : r.Reaches plan d)
      (drafts : ∀ x ∈ first, r.Drafting d x) (still : ∀ x ∈ later, x = r.placed d q)
      (slot : d.slot r.target = .ok q)
      (troubled : ∀ t, result = some (.error t) → ∃ s ∈ settling, ∃ n, plan s = some (.trouble t n)) :
      Ended plan r d ⟨first ++ later, r.placed d q, result⟩

theorem run_ended (plan : Plan) (r : Replacement) (d : Disk) : r.Ended plan d (r.run plan d) := by
  have made := follow_making plan r d
  have reaches := @follow_making_ok plan r d
  rw [run, show steps = making ++ settling from rfl, follow_append]
  generalize follow plan r making d = o at made reaches
  cases made with
  | undone drafts => exact .undone (fun late => nomatch reaches.mpr late) drafts
  | crashed drafts last => exact .crashed (fun late => nomatch reaches.mpr late) drafts last
  | @placed first q drafts unused slot =>
    obtain ⟨later, result, settled, still, troubled⟩ :=
      follow_settling plan r (r.placed d q) fun s member => member
    simp only [Outcome.andThen, settled]
    exact .placed (reaches.mp rfl) drafts still slot troubled

theorem read_run (done : (r.run plan d).result = some (.ok ())) :
    (r.run plan d).disk.read r.target = .ok r.content := by
  have ended := run_ended plan r d
  generalize r.run plan d = o at ended done
  cases ended with
  | undone | crashed => cases done
  | placed late drafts still slot =>
    exact Disk.read_of_content? (Disk.content?_set_self slot)

theorem run_of_reaches (reaches : r.Reaches plan d) :
    (r.run plan d).result = (follow plan r settling (follow plan r making d).disk).result := by
  have made := follow_making_ok.mpr reaches
  rw [run, show steps = making ++ settling from rfl, follow_append, Outcome.andThen, made]

theorem run_smooth {q : Place} (unused : d.at? r.scratch = none) (free : d.slot r.target = .ok q) :
    (r.run .smooth d).result = some (.ok ()) :=
  run_of_reaches ⟨fun _ _ => rfl, unused, q, free⟩

end Custody.Replacement
