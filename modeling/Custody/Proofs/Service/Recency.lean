import Custody.Proofs.Service.Durability
import Custody.Proofs.Service.Schedule

/-!
Saves that overlap, and the file. The guard keeps the order of the copies and the order of the writes together,
but for the write of a task that was dropped: it may come after the last save and put an older copy in the place
of the file.
-/

namespace Custody.Schedule

variable {service : Service} {saveOnStop : Bool} {s t u : State} {a : Action} {actions : List Action}
  {who : Saver} {p : Progress} {c : Copy}

section Places

namespace State

theorem mem_busy : who ∈ s.busy ↔ who ∈ s.waiting ∨ ∃ p, s.guard = some (who, p) := by
  simp [busy]

theorem busy_of_guard (held : s.guard = some (who, p)) : who ∈ s.busy := mem_busy.mpr (.inr ⟨p, held⟩)

def Admits (s : State) : Saver → Prop
  | .guest _ => s.phase = .serving
  | .clock => s.dropped = false
  | .last => s.phase.late = true

end State

/-- Nobody is busy out of time, and a write is left to itself only by a task that was dropped. -/
structure Placed (s : State) : Prop where
  busy : ∀ who ∈ s.busy, s.Admits who
  dropped : s.dropped = true → s.phase.late = true
  loose : ∀ c, s.loose = some c → s.dropped = true

theorem placed_start (v : Vault) (saved : Option Snapshot) (disk : Disk) : Placed (.start v saved disk) :=
  ⟨fun _ busy => (nomatch busy), fun dropped => (nomatch dropped), fun _ left => (nomatch left)⟩

namespace Placed

theorem mono (placed : Placed s) (busy : ∀ who ∈ t.busy, who ∈ s.busy) (phase : t.phase = s.phase)
    (dropped : t.dropped = s.dropped) (loose : ∀ c, t.loose = some c → s.loose = some c) : Placed t := by
  refine ⟨fun who member => ?_, ?_, fun c left => dropped.trans (placed.loose c (loose c left))⟩
  · have admits := placed.busy who (busy who member)
    cases who with
    | guest id => exact phase.trans admits
    | clock => exact dropped.trans admits
    | last => exact (congrArg Phase.late phase).trans admits
  · rw [dropped, phase]
    exact placed.dropped

theorem hold (placed : Placed s) (busy : who ∈ s.busy) : Placed (s.hold who p) := by
  refine placed.mono (fun x member => ?_) rfl rfl fun _ left => left
  rcases State.mem_busy.mp member with waits | ⟨q, held⟩
  · exact State.mem_busy.mpr (.inl waits)
  · cases held
    exact busy

theorem queue (placed : Placed s) (admits : s.Admits who) : Placed (s.queue who) := by
  refine ⟨fun x member => ?_, placed.dropped, placed.loose⟩
  have asked : x ∈ s.busy ∨ x = who := by
    rcases State.mem_busy.mp member with waits | held
    · rcases List.mem_append.mp waits with waits | same
      · exact .inl (State.mem_busy.mpr (.inl waits))
      · exact .inr (List.mem_singleton.mp same)
    · exact .inl (State.mem_busy.mpr (.inr held))
  rcases asked with busy | rfl
  · exact placed.busy x busy
  · exact admits

theorem release (placed : Placed s) : Placed { s with guard := none } := by
  refine placed.mono (fun x member => ?_) rfl rfl fun _ left => left
  rcases State.mem_busy.mp member with waits | ⟨q, held⟩
  · exact State.mem_busy.mpr (.inl waits)
  · cases held

theorem advance (placed : Placed s) {phase : Phase} (late : phase.late = true)
    (gone : ∀ id, .guest id ∉ s.busy) : Placed { s with phase := phase } := by
  refine ⟨fun who member => ?_, fun _ => late, placed.loose⟩
  cases who with
  | guest id => exact absurd member (gone id)
  | clock => exact placed.busy .clock member
  | last => exact late

theorem drop (placed : Placed s) (late : s.phase.late = true) {guard : Option (Saver × Progress)}
    {loose : Option Copy} (other : ∀ who p, guard = some (who, p) → who ≠ .clock ∧ s.guard = some (who, p)) :
    Placed { s with waiting := s.waiting.filter (· ≠ Saver.clock), dropped := true, guard, loose } := by
  refine ⟨fun who member => ?_, fun _ => late, fun _ _ => rfl⟩
  have still : who ≠ .clock ∧ who ∈ s.busy := by
    rcases State.mem_busy.mp member with waits | ⟨p, held⟩
    · obtain ⟨waits, other⟩ := List.mem_filter.mp waits
      exact ⟨of_decide_eq_true other, State.mem_busy.mpr (.inl waits)⟩
    · obtain ⟨apart, held⟩ := other who p held
      exact ⟨apart, State.busy_of_guard held⟩
  have admits := placed.busy who still.2
  cases who with
  | guest id => exact admits
  | clock => exact absurd rfl still.1
  | last => exact admits

theorem gone_of_phase (placed : Placed s) (phase : s.phase ≠ .serving) (id : Nat) : .guest id ∉ s.busy :=
  fun busy => phase (placed.busy _ busy)

theorem serve (placed : Placed s) (draw : Draw) (r : Request) : Placed (s.serve draw r) :=
  ⟨placed.busy, placed.dropped, placed.loose⟩

theorem replace (placed : Placed s) (k : Keeper) (supply : Supply) (c : Copy) : Placed (s.replace k supply c) :=
  ⟨placed.busy, placed.dropped, placed.loose⟩

theorem step (placed : Placed s) (took : Took service saveOnStop s a t) : Placed t := by
  cases took with
  | served => exact placed.serve _ _
  | asked phase => exact (placed.serve _ _).queue phase
  | ticked kept => exact placed.queue kept
  | locked free waits =>
    refine placed.mono (fun x member => ?_) rfl rfl fun _ left => left
    rcases State.mem_busy.mp member with rest | ⟨p, held⟩
    · exact State.mem_busy.mpr (.inl (List.mem_of_mem_erase rest))
    · cases held
      exact State.mem_busy.mpr (.inl waits)
  | copied held | began held => exact placed.hold (State.busy_of_guard held)
  | finished held => exact (placed.replace _ _ _).hold (State.busy_of_guard held)
  | released => exact placed.release
  | ended held =>
    have late : s.phase.late = true := placed.busy .last (State.busy_of_guard held)
    refine placed.release.advance rfl (placed.release.gone_of_phase fun serving => ?_)
    cases (congrArg Phase.late serving).symm.trans late
  | joined phase alone =>
    refine ⟨fun who member => ?_, fun dropped => ?_, placed.loose⟩
    · cases alone who member
      exact placed.busy .clock member
    · cases (congrArg Phase.late phase).symm.trans (placed.dropped dropped)
  | stopped phase =>
    have saving : Placed { s with phase := .saving } :=
      placed.advance rfl (placed.gone_of_phase fun serving => nomatch phase.symm.trans serving)
    have admits : ({ s with phase := .saving } : State).Admits .last := rfl
    exact saving.queue admits
  | left phase => exact placed.advance rfl (placed.gone_of_phase fun serving => nomatch phase.symm.trans serving)
  | loosened late | freed late => exact placed.drop late fun _ _ held => nomatch held
  | dropped late other => exact placed.drop late fun who p held => ⟨fun clock => other p (clock ▸ held), held⟩
  | landed => exact ⟨placed.busy, placed.dropped, fun _ left => nomatch left⟩

theorem last_of_loose (placed : Placed s) (left : s.loose = some c) (busy : who ∈ s.busy) : who = .last := by
  have dropped := placed.loose c left
  have admits := placed.busy who busy
  cases who with
  | guest id => cases (congrArg Phase.late admits).symm.trans (placed.dropped dropped)
  | clock => cases admits.symm.trans dropped
  | last => rfl

end Placed

end Places

section Numbers

namespace State

def UpTo (s : State) (n : Nat) : Prop := ∀ m ∈ s.file, m ≤ n

theorem changes_serve (s : State) (draw : Draw) (r : Request) : s.changes ≤ (s.serve draw r).changes := by
  simp only [changes, serve]
  split
  · simp
  · exact Nat.le_refl _

theorem file_replace (s : State) (k : Keeper) (supply : Supply) (c : Copy) :
    s.Places k supply c ∧ (s.replace k supply c).file = some c.number ∨
      ¬s.Places k supply c ∧ (s.replace k supply c).file = s.file := by
  by_cases places : s.Places k supply c
  · exact .inl ⟨places, if_pos places⟩
  · exact .inr ⟨places, if_neg places⟩

end State

def Forward (s t : State) : Prop := ∀ n ∈ s.file, ∃ m ∈ t.file, n ≤ m

/-- The file has seen no change that a copy has not, and what the server copies when it stops has seen all; a write
that is left to itself may be behind the file only where the file has seen all. -/
structure Recent (saveOnStop : Bool) (s : State) : Prop where
  file : s.UpTo s.changes
  copy : ∀ who p c, s.guard = some (who, p) → p.copy? = some c →
    s.UpTo c.number ∧ c.number ≤ s.changes ∧ (who = .last → c.number = s.changes)
  loose : ∀ c, s.loose = some c → c.number ≤ s.changes ∧ (s.UpTo c.number ∨ s.file = some s.changes)
  written : s.guard = some (.last, .written (.ok ())) → s.file = some s.changes
  ended : saveOnStop = true → s.phase = .ended (.ok ()) → s.file = some s.changes

/-- The write of the task that was dropped puts an older copy in the place of a file that has seen all changes. -/
def Overtakes (k : Keeper) (s : State) : Action → Prop
  | .finishLoose supply =>
    ∃ c, s.loose = some c ∧ s.Places k supply c ∧ c.number < s.changes ∧ s.file = some s.changes
  | _ => False

theorem recent_start (saveOnStop : Bool) (v : Vault) (saved : Option Snapshot) (disk : Disk) :
    Recent saveOnStop (.start v saved disk) := by
  refine ⟨fun n seen => ?_, fun _ _ _ held => (nomatch held), fun _ left => (nomatch left),
    fun held => (nomatch held), fun _ ended => (nomatch ended)⟩
  obtain ⟨_, -, rfl⟩ := Option.map_eq_some_iff.mp seen
  exact Nat.le_refl 0

namespace Recent

theorem serve (recent : Recent saveOnStop s) (placed : Placed s) (phase : s.phase = .serving) (draw : Draw)
    (r : Request) : Recent saveOnStop (s.serve draw r) := by
  have more := s.changes_serve draw r
  have early : s.phase.late ≠ true := by simp [phase, Phase.late]
  have unserved (p : Progress) : s.guard ≠ some (.last, p) := fun held =>
    early (placed.busy .last (State.busy_of_guard held))
  constructor
  · exact fun n seen => (recent.file n seen).trans more
  · intro who p c held copied
    obtain ⟨upTo, made, -⟩ := recent.copy who p c held copied
    exact ⟨upTo, made.trans more, fun last => absurd (last ▸ held) (unserved p)⟩
  · exact fun c left => absurd (placed.dropped (placed.loose c left)) early
  · exact fun held => absurd held (unserved _)
  · intro _ ended
    cases phase.symm.trans ended

theorem reguard (recent : Recent saveOnStop s) {waiting : List Saver} {guard : Option (Saver × Progress)}
    {dropped : Bool} {phase : Phase} (bare : ∀ who p, guard = some (who, p) → p = .begun ∨ s.guard = some (who, p))
    (ended : saveOnStop = true → phase = .ended (.ok ()) → s.file = some s.changes) :
    Recent saveOnStop { s with waiting, guard, dropped, phase } := by
  refine ⟨recent.file, fun who p c held copied => ?_, recent.loose, fun held => ?_, ended⟩
  · rcases bare who p held with rfl | same
    · cases copied
    · exact recent.copy who p c same copied
  · rcases bare _ _ held with begun | same
    · cases begun
    · exact recent.written same

theorem hold (recent : Recent saveOnStop s) (copied : p.copy? = some c)
    (fresh : s.UpTo c.number ∧ c.number ≤ s.changes ∧ (who = .last → c.number = s.changes)) :
    Recent saveOnStop (s.hold who p) := by
  refine ⟨recent.file, ?_, recent.loose, fun held => ?_, recent.ended⟩
  · rintro x q d ⟨⟩ same
    cases copied.symm.trans same
    exact fresh
  · cases held
    cases copied

variable {k : Keeper} {supply : Supply}

theorem replace (recent : Recent saveOnStop s) (made : c.number ≤ s.changes)
    (newer : s.Places k supply c → s.UpTo c.number) :
    (s.replace k supply c).UpTo s.changes ∧ Forward s (s.replace k supply c) ∧
      (s.file = some s.changes → (s.replace k supply c).file = some s.changes) := by
  obtain ⟨places, seen⟩ | ⟨-, same⟩ := s.file_replace k supply c
  · refine ⟨fun n found => ?_, fun n found => ⟨_, seen, newer places n found⟩, fun all => ?_⟩
    · cases seen.symm.trans found
      exact made
    · rw [seen, Nat.le_antisymm made (newer places _ all)]
  · exact ⟨fun n found => recent.file n (same.symm.trans found), fun n found => ⟨n, same.trans found, Nat.le_refl n⟩,
      same.trans⟩

theorem finish (recent : Recent saveOnStop s) (placed : Placed s) {r : Except Failure Unit}
    (held : s.guard = some (who, .writing c)) (result : (s.saving k supply c).result = some r) :
    Recent saveOnStop ((s.replace k supply c).hold who (.written r)) ∧ Forward s (s.replace k supply c) := by
  obtain ⟨upTo, made, last⟩ := recent.copy who (.writing c) c held rfl
  obtain ⟨file, forward, kept⟩ := @replace saveOnStop s c k supply recent made fun _ => upTo
  refine ⟨⟨file, ?_, fun x left => ?_, fun wrote => ?_, fun wanted ended => kept (recent.ended wanted ended)⟩, forward⟩
  · rintro x p y ⟨⟩ ⟨⟩
  · -- the server is the one that writes, and its copy has seen all
    have all : c.number = s.changes := last (placed.last_of_loose left (State.busy_of_guard held))
    obtain ⟨older, behind⟩ := recent.loose x left
    obtain ⟨-, seen⟩ | ⟨-, same⟩ := s.file_replace k supply c
    · exact ⟨older, .inr (seen.trans (congrArg some all))⟩
    · refine ⟨older, behind.imp (fun upTo n found => upTo n (same.symm.trans found)) same.trans⟩
  · cases wrote
    have places : s.Places k supply c := Keeper.reaches_of_ok result
    exact (if_pos places).trans (congrArg some (last rfl))

theorem upTo_of_not_overtakes (recent : Recent saveOnStop s) (left : s.loose = some c)
    (fair : ¬Overtakes k s (.finishLoose supply)) (places : s.Places k supply c) : s.UpTo c.number := by
  obtain ⟨older, upTo | all⟩ := recent.loose c left
  · exact upTo
  · have same : ¬c.number < s.changes := fun behind => fair ⟨c, left, places, behind, all⟩
    intro n found
    exact (recent.file n found).trans (Nat.le_of_not_lt same)

theorem land (recent : Recent saveOnStop s) (placed : Placed s) (left : s.loose = some c)
    (fair : ¬Overtakes k s (.finishLoose supply)) :
    Recent saveOnStop { s.replace k supply c with loose := none } ∧ Forward s (s.replace k supply c) := by
  have made := (recent.loose c left).1
  obtain ⟨file, forward, kept⟩ := recent.replace made (recent.upTo_of_not_overtakes left fair)
  refine ⟨⟨file, fun who p x held copied => ?_, fun _ left => (nomatch left), fun wrote => kept (recent.written wrote),
    fun wanted ended => kept (recent.ended wanted ended)⟩, forward⟩
  -- only the server can have a copy, and its copy has seen all
  obtain ⟨upTo, most, last⟩ := recent.copy who p x held copied
  have all : x.number = s.changes := last (placed.last_of_loose left (State.busy_of_guard held))
  exact ⟨all ▸ file, most, last⟩

theorem step (recent : Recent saveOnStop s) (placed : Placed s) (took : Took service saveOnStop s a t)
    (fair : ¬Overtakes service.keeper s a) : Recent saveOnStop t ∧ Forward s t := by
  have still : Forward s s := fun n found => ⟨n, found, Nat.le_refl n⟩
  cases took with
  | served phase => exact ⟨recent.serve placed phase _ _, still⟩
  | asked phase =>
    have served := recent.serve placed phase
    exact ⟨(served _ _).reguard (fun _ _ => .inr) (served _ _).ended, still⟩
  | ticked => exact ⟨recent.reguard (fun _ _ => .inr) recent.ended, still⟩
  | locked =>
    refine ⟨recent.reguard (fun who p held => ?_) recent.ended, still⟩
    cases held
    exact .inl rfl
  | copied => exact ⟨recent.hold rfl ⟨recent.file, Nat.le_refl _, fun _ => rfl⟩, still⟩
  | began held => exact ⟨recent.hold rfl (recent.copy _ _ _ held rfl), still⟩
  | finished held result => exact recent.finish placed held result
  | released => exact ⟨recent.reguard (fun _ _ held => nomatch held) recent.ended, still⟩
  | ended held =>
    refine ⟨recent.reguard (fun _ _ held => nomatch held) fun _ ended => ?_, still⟩
    cases ended
    exact recent.written held
  | joined | stopped => exact ⟨recent.reguard (fun _ _ => .inr) fun _ ended => (nomatch ended), still⟩
  | left _ unwanted =>
    refine ⟨recent.reguard (fun _ _ => .inr) fun wanted => ?_, still⟩
    cases unwanted.symm.trans wanted
  | loosened _ held =>
    obtain ⟨upTo, made, -⟩ := recent.copy _ _ _ held rfl
    refine ⟨⟨recent.file, fun _ _ _ held => (nomatch held), fun x left => ?_, fun held => (nomatch held),
      recent.ended⟩, still⟩
    cases left
    exact ⟨made, .inl upTo⟩
  | freed => exact ⟨recent.reguard (fun _ _ held => nomatch held) recent.ended, still⟩
  | dropped => exact ⟨recent.reguard (fun _ _ => .inr) recent.ended, still⟩
  | landed left => exact recent.land placed left fair

end Recent

end Numbers

section Contents

namespace State

theorem version?_changes (s : State) : s.version? s.changes = some s.vault := List.getElem?_concat_length

theorem versions_serve (s : State) (draw : Draw) (r : Request) :
    (s.serve draw r).past ++ [(s.serve draw r).vault] =
      s.past ++ s.vault :: if s.vault.changes r then [s.vault.after draw r] else [] := by
  cases changes : s.vault.changes r with
  | true => simp [serve, changes]
  | false => simp [serve, changes, Vault.after_of_not_changes changes]

theorem version?_serve {n : Nat} {v : Vault} (found : s.version? n = some v) (draw : Draw) (r : Request) :
    (s.serve draw r).version? n = some v := by
  have inside : n < (s.past ++ [s.vault]).length := (List.getElem?_eq_some_iff.mp found).1
  rw [version?, versions_serve, ← List.singleton_append, ← List.append_assoc, List.getElem?_append_left inside]
  exact found

/-- The file is what would be saved of the version of the vault that it has seen, or there is none. -/
structure Stands (k : Keeper) (s : State) : Prop where
  absent : s.file = none → k.restore s.disk = .ok none
  present : ∀ n, s.file = some n → ∃ v, s.version? n = some v ∧ k.restore s.disk = .ok (some v.snapshot)

end State

def Action.Timely : Action → Prop
  | .request _ draw _ => draw.now.Valid
  | _ => True

structure Kept (k : Keeper) (password : Bytes) (s : State) : Prop where
  sound : ∀ v ∈ s.past ++ [s.vault], v.Sound password
  copy : ∀ who p c, s.guard = some (who, p) → p.copy? = some c → s.version? c.number = some c.vault
  loose : ∀ c, s.loose = some c → s.version? c.number = some c.vault
  file : s.Stands k

variable {k : Keeper} {password : Bytes} {supply : Supply}

theorem kept_start {disk : Disk} {saved : Option Snapshot} {cost : Cost} {draw : Draw} {v : Vault}
    (clock : draw.now.Valid) (restored : k.restore disk = .ok saved)
    (loaded : Vault.load password cost saved draw = .ok v) : Kept k password (.start v saved disk) := by
  obtain ⟨sound, keeps⟩ := Service.keeps_loaded clock restored loaded
  refine ⟨List.forall_mem_singleton.mpr sound, fun _ _ _ held => (nomatch held), fun _ left => (nomatch left),
    ?_⟩
  cases saved with
  | none => exact ⟨fun _ => restored, fun _ seen => nomatch seen⟩
  | some found =>
    obtain ⟨absent, -⟩ | stands := keeps
    · cases absent.symm.trans restored
    · refine ⟨fun none => (nomatch none), fun n seen => ?_⟩
      cases seen
      exact ⟨v, rfl, stands⟩

namespace Kept

theorem serve (kept : Kept k password s) {draw : Draw} (clock : draw.now.Valid) (r : Request) :
    Kept k password (s.serve draw r) := by
  refine ⟨?_, fun who p c held copied => ?_, fun c left => ?_, ?_⟩
  · rw [State.versions_serve, List.append_cons]
    refine List.forall_mem_append.mpr ⟨kept.sound, ?_⟩
    split
    · refine List.forall_mem_singleton.mpr (Vault.Sound.after (kept.sound s.vault ?_) clock r)
      exact List.mem_append_right _ (List.mem_singleton_self _)
    · exact nofun
  · exact State.version?_serve (kept.copy who p c held copied) draw r
  · exact State.version?_serve (kept.loose c left) draw r
  · refine ⟨kept.file.absent, fun n seen => ?_⟩
    obtain ⟨v, found, stands⟩ := kept.file.present n seen
    exact ⟨v, State.version?_serve found draw r, stands⟩

theorem reguard (kept : Kept k password s) {waiting : List Saver} {guard : Option (Saver × Progress)}
    {loose : Option Copy} {dropped : Bool} {phase : Phase}
    (copy : ∀ who p c, guard = some (who, p) → p.copy? = some c → s.version? c.number = some c.vault)
    (left : ∀ c, loose = some c → s.version? c.number = some c.vault) :
    Kept k password { s with waiting, guard, loose, dropped, phase } :=
  ⟨kept.sound, copy, left, kept.file.absent, kept.file.present⟩

theorem hold (kept : Kept k password s) (copied : ∀ c, p.copy? = some c → s.version? c.number = some c.vault) :
    Kept k password (s.hold who p) := by
  refine kept.reguard ?_ kept.loose
  rintro x q c ⟨⟩ same
  exact copied c same

theorem replace (kept : Kept k password s) {r : Except Failure Unit} (version : s.version? c.number = some c.vault)
    (result : (s.saving k supply c).result = some r) : Kept k password (s.replace k supply c) := by
  refine ⟨kept.sound, kept.copy, kept.loose, ?_⟩
  obtain ⟨places, seen⟩ | ⟨places, seen⟩ := s.file_replace k supply c
  · have sound := kept.sound c.vault (List.mem_of_getElem? version)
    refine ⟨fun none => (nomatch seen.symm.trans none), fun n some => ?_⟩
    cases seen.symm.trans some
    exact ⟨c.vault, version, Keeper.restore_reached sound.saved places⟩
  · have disk : (s.replace k supply c).disk = s.disk := by
      cases r with
      | ok _ => exact absurd (Keeper.reaches_of_ok result) places
      | error f => exact Keeper.save_unreached places result
    refine ⟨fun none => ?_, fun n some => ?_⟩
    · rw [disk]
      exact kept.file.absent (seen.symm.trans none)
    · rw [disk]
      exact kept.file.present n (seen.symm.trans some)

theorem step (kept : Kept service.keeper password s) (took : Took service saveOnStop s a t) (timely : a.Timely) :
    Kept service.keeper password t := by
  cases took with
  | served => exact kept.serve timely _
  | @asked _ _ r =>
    have served := kept.serve timely r
    exact served.reguard served.copy served.loose
  | ticked | joined | stopped | left | dropped => exact kept.reguard kept.copy kept.loose
  | locked =>
    refine kept.reguard ?_ kept.loose
    rintro x q c ⟨⟩ ⟨⟩
  | copied =>
    refine kept.hold fun c copied => ?_
    cases copied
    exact s.version?_changes
  | began held =>
    refine kept.hold fun c copied => ?_
    cases copied
    exact kept.copy _ _ _ held rfl
  | finished held result =>
    have replaced := kept.replace (kept.copy _ _ _ held rfl) result
    exact replaced.hold fun _ copied => nomatch copied
  | released | ended | freed => exact kept.reguard (fun _ _ _ held => nomatch held) kept.loose
  | loosened _ held =>
    refine kept.reguard (fun _ _ _ held => nomatch held) fun c left => ?_
    cases left
    exact kept.copy _ _ _ held rfl
  | landed left result =>
    have replaced := kept.replace (kept.loose _ left) result
    exact replaced.reguard replaced.copy fun _ left => nomatch left

end Kept

end Contents

section Runs

variable {password : Bytes} {disk : Disk} {saved : Option Snapshot} {cost : Cost} {draw : Draw} {v : Vault}

/-- No step of a run is a write that overtakes the last save. -/
def Fair (service : Service) (saveOnStop : Bool) (s : State) (actions : List Action) : Prop :=
  ∀ t a u, Steps service saveOnStop s actions t a u → ¬Overtakes service.keeper t a

theorem fair_of_unleft (unleft : ∀ t a u, Steps service saveOnStop s actions t a u → t.loose = none) :
    Fair service saveOnStop s actions := by
  intro t a u went overtakes
  have none := unleft t a u went
  cases a with
  | finishLoose supply =>
    obtain ⟨c, left, -⟩ := overtakes
    cases none.symm.trans left
  | _ => exact overtakes.elim

theorem kept_run (kept : Kept service.keeper password s) (timely : ∀ a ∈ actions, a.Timely)
    (ran : run service saveOnStop s actions = some u) : Kept service.keeper password u := by
  refine (run_invariant (fun t a u went kept => ?_) kept).1 u ran
  obtain ⟨before, after, rfl, -, done⟩ := went
  exact kept.step (step_took done) (timely a (by simp))

theorem recent_run (recent : Recent saveOnStop s) (placed : Placed s) (fair : Fair service saveOnStop s actions) :
    (∀ u, run service saveOnStop s actions = some u → Recent saveOnStop u) ∧
      ∀ t a u, Steps service saveOnStop s actions t a u → Forward t u := by
  have one (t a u) (went : Steps service saveOnStop s actions t a u) (holds : Placed t ∧ Recent saveOnStop t) :=
    holds.2.step holds.1 (step_took went.done) (fair t a u went)
  obtain ⟨last, each⟩ := run_invariant (P := fun s => Placed s ∧ Recent saveOnStop s)
    (fun t a u went holds => ⟨holds.1.step (step_took went.done), (one t a u went holds).1⟩) ⟨placed, recent⟩
  exact ⟨fun u ran => (last u ran).2, fun t a u went => (one t a u went (each t a u went)).2⟩

theorem not_forward_of_overtakes (took : Took service saveOnStop s a t) (overtakes : Overtakes service.keeper s a) :
    ¬Forward s t := by
  cases took with
  | landed left result =>
    obtain ⟨c, same, places, behind, all⟩ := overtakes
    cases left.symm.trans same
    intro forward
    obtain ⟨n, seen, more⟩ := forward _ all
    cases (if_pos places).symm.trans seen
    exact absurd behind (Nat.not_lt.mpr more)
  | _ => exact overtakes.elim

/-- No write puts an older version of the vault in the place of a newer one, and the file of a server that has
stopped and saved well is the vault as it was last. -/
def KeepsUp (service : Service) (saveOnStop : Bool) (start : State) (actions : List Action) (s : State) : Prop :=
  (∀ t a u, Steps service saveOnStop start actions t a u → Forward t u) ∧
    (saveOnStop = true → s.phase = .ended (.ok ()) → service.keeper.restore s.disk = .ok (some s.vault.snapshot))

theorem keepsUp_of_fair {start : State} (recent : Recent saveOnStop start) (placed : Placed start)
    (fair : Fair service saveOnStop start actions) (ran : run service saveOnStop start actions = some s)
    (stands : s.Stands service.keeper) : KeepsUp service saveOnStop start actions s := by
  obtain ⟨last, forward⟩ := recent_run recent placed fair
  refine ⟨forward, fun wanted ended => ?_⟩
  obtain ⟨v, version, file⟩ := stands.present _ ((last s ran).ended wanted ended)
  cases s.version?_changes.symm.trans version
  exact file

/-- What keeps a write from being left to itself: the task of the clock is dropped only when it is not writing. -/
theorem file_keeps_up_of_awaited (clock : draw.now.Valid) (restored : service.keeper.restore disk = .ok saved)
    (loaded : Vault.load password cost saved draw = .ok v) (timely : ∀ a ∈ actions, a.Timely)
    (ran : run service saveOnStop (.start v saved disk) actions = some s)
    (awaited : ∀ t u c, Steps service saveOnStop (.start v saved disk) actions t .drop u →
      t.guard ≠ some (.clock, .writing c)) : KeepsUp service saveOnStop (.start v saved disk) actions s := by
  have stands := (kept_run (kept_start clock restored loaded) timely ran).file
  have unleft : ∀ t a u, Steps service saveOnStop (.start v saved disk) actions t a u → t.loose = none := by
    refine (run_invariant (P := fun s => s.loose = none) (fun t a u went none => ?_) rfl).2
    have took := step_took went.done
    cases took with
    | loosened _ held => exact absurd held (awaited t _ _ went)
    | landed => rfl
    | _ => exact none
  exact keepsUp_of_fair (recent_start saveOnStop v saved disk) (placed_start v saved disk) (fair_of_unleft unleft) ran
    stands

/-- However requests, saves on request, after changes and by the clock, and the end of the server interleave, the
file is what would be saved of some version of the vault. It never goes back, and it is the vault as it was last from
the end of the server on, exactly if the write of a task that was dropped never comes after the last save with a copy
from before the last change. -/
theorem file_keeps_up_iff (clock : draw.now.Valid) (restored : service.keeper.restore disk = .ok saved)
    (loaded : Vault.load password cost saved draw = .ok v) (timely : ∀ a ∈ actions, a.Timely)
    (ran : run service saveOnStop (.start v saved disk) actions = some s) :
    s.Stands service.keeper ∧
      (KeepsUp service saveOnStop (.start v saved disk) actions s ↔
        Fair service saveOnStop (.start v saved disk) actions) := by
  have stands := (kept_run (kept_start clock restored loaded) timely ran).file
  refine ⟨stands, fun ⟨forward, _⟩ t a u went overtakes => ?_, fun fair => ?_⟩
  · exact not_forward_of_overtakes (step_took went.done) overtakes (forward t a u went)
  · exact keepsUp_of_fair (recent_start saveOnStop v saved disk) (placed_start v saved disk) fair ran stands

end Runs

section Examples

structure Ready (d : Disk) : Prop where
  home : d.home = .root
  unused : d.at? (Place.root.child "scratch") = none
  free : d.at? (Place.root.child "vault") ≠ some .folder

theorem ready_empty : Ready (.empty .root) := ⟨rfl, rfl, by decide⟩

def undisturbed : Supply := ⟨.plain, .plain, .smooth⟩

theorem Ready.save {d : Disk} (ready : Ready d) {w : Snapshot} {b : Bytes}
    (made : Archive.encode w [113] ⟨8, 1, 1⟩ .plain = .ok b) :
    let saving := Keeper.plain.save .smooth w .plain d
    saving.result = some (.ok ()) ∧ Ready saving.disk := by
  intro saving
  have beside : d.beside Keeper.plain.path = .ok .root := congrArg Except.ok ready.home
  have located : d.locate Keeper.plain.path = .ok (.entry (Place.root.child "vault")) :=
    congrArg (fun home => Except.ok (Disk.Goal.entry (Place.child home "vault"))) ready.home
  have slot := Disk.slot_eq_ok.mpr ⟨located, rfl, ready.free⟩
  have done : saving.result = some (.ok ()) := Keeper.save_smooth made beside ready.unused slot
  obtain ⟨c, q, -, same, disk, -⟩ := Keeper.save_reached (Keeper.reaches_of_ok done)
  cases slot.symm.trans same
  have apart : (Place.root.child "vault").text ≠ (Place.root.child "scratch").text := by decide
  have inside : Place.root.child "vault" ≠ .root := by decide
  refine ⟨done, ?_⟩
  rw [show saving.disk = _ from disk]
  exact ⟨ready.home, (Disk.at?_set_other apart).trans ready.unused, by simp [Disk.at?_set inside]⟩

theorem archive_new (master : SecretKey) :
    ∃ b, Archive.encode (Vault.plain master).snapshot [113] ⟨8, 1, 1⟩ .plain = .ok b := by
  obtain ⟨key, derived⟩ : ∃ key, Secret.deriveKey [113] Draw.plain.salt ⟨8, 1, 1⟩ = .ok key := ⟨_, rfl⟩
  have checked := Sealing.length_sealText (Keyring.checkKey master) Draw.plain.nonce [] Keyring.checkText
  refine ⟨_, Archive.sealDocument_eq (by decide) derived ?_⟩
  change (Snapshot.document (Vault.plain master).keyring []).render.length < Sealing.capacity
  simp only [Snapshot.document, Vault.plain, Keyring.codec, Keyring.schema, Json.Codec.list, Json.Schema.codec,
    Json.Schema.members, Json.record, List.map_cons, List.map_nil, Json.render, Json.renderMembers,
    List.length_append, List.length_cons, Json.Codec.length_render_base64, checked]
  decide +kernel

def stored (master : SecretKey) : Vault := (Vault.plain master).after .plain (.put .plain [1] .empty)

theorem stored_eq (master : SecretKey) : stored master = .stored master := Service.after_plain master

theorem archive_stored (master : SecretKey) :
    ∃ b, Archive.encode (stored master).snapshot [113] ⟨8, 1, 1⟩ .plain = .ok b := by
  rw [stored_eq]
  obtain ⟨key, derived⟩ : ∃ key, Secret.deriveKey [113] Draw.plain.salt ⟨8, 1, 1⟩ = .ok key := ⟨_, rfl⟩
  have checked := Sealing.length_sealText (Keyring.checkKey master) Draw.plain.nonce [] Keyring.checkText
  have small := Sealing.length_sealText (Vault.entryKeyOf master) Draw.plain.nonce KeyId.plain.bytes [1]
  exact ⟨_, Archive.sealDocument_eq (by decide) derived (Vault.length_document_plain checked small)⟩

def lastSave : List Action := [.lock .last, .copy, .write, .finish undisturbed, .release]

theorem run_lastSave {k : Keeper} {r : Except Failure Unit} (waits : s.waiting = [.last]) (free : s.guard = none)
    (result : (k.save .smooth s.vault.snapshot .plain s.disk).result = some r) :
    ∃ t, run ⟨k, false⟩ true s lastSave = some t ∧ t.phase = .ended r ∧ t.vault = s.vault ∧ t.loose = s.loose ∧
      t.disk = (k.save .smooth s.vault.snapshot .plain s.disk).disk :=
  ⟨_, run_save waits free result, rfl, rfl, rfl, rfl⟩

theorem step_finishLoose {k : Keeper} {r : Except Failure Unit} (left : s.loose = some c)
    (result : (k.save .smooth c.vault.snapshot .plain s.disk).result = some r) :
    ∃ t, step ⟨k, false⟩ true s (.finishLoose undisturbed) = some t ∧ t.phase = s.phase ∧ t.vault = s.vault ∧
      t.disk = (k.save .smooth c.vault.snapshot .plain s.disk).disk := by
  simp only [step, left]
  exact ⟨_, congrArg (Option.map _) result, rfl, rfl, rfl⟩

/-- While the clock saves a key is stored, and the server is told to stop. The save is dropped with its task, or it is
begun before that and left to itself. -/
def droppedSave (begun : List Action) : List Action :=
  [.tick, .lock .clock, .copy, .request 0 .plain (.put .plain [1] .empty)] ++ begun ++ [.join, .stop, .drop]

def aboutToSave (master : SecretKey) (loose : Option Copy) : State :=
  ⟨stored master, [.plain master], .empty .root, none, [.last], none, loose, true, .saving⟩

theorem run_droppedSave (master : SecretKey) :
    let start := State.start (.plain master) none (.empty .root)
    run ⟨.plain, false⟩ true start (droppedSave []) = some (aboutToSave master none) ∧
      run ⟨.plain, false⟩ true start (droppedSave [.write]) = some (aboutToSave master (some ⟨.plain master, 0⟩)) :=
  ⟨rfl, rfl⟩

theorem file_keeps_up_iff_dropped : ∃ v s, Keeper.plain.restore (.empty .root) = .ok none ∧
    Vault.load [112] ⟨8, 1, 1⟩ none .plain = .ok v ∧ (∀ a ∈ droppedSave [] ++ lastSave, a.Timely) ∧
    run ⟨.plain, false⟩ true (.start v none (.empty .root)) (droppedSave [] ++ lastSave) = some s ∧
    s.phase = .ended (.ok ()) ∧
      KeepsUp ⟨.plain, false⟩ true (.start v none (.empty .root)) (droppedSave [] ++ lastSave) s := by
  have clock : Draw.plain.now.Valid := by decide
  have restored : Keeper.plain.restore (.empty .root) = .ok none := rfl
  obtain ⟨master, loaded⟩ := Vault.load_plain
  obtain ⟨b, made⟩ := archive_stored master
  have saved := (ready_empty.save made).1
  obtain ⟨s, ran, ended, -⟩ := run_lastSave (s := aboutToSave master none) rfl rfl saved
  have timely : ∀ a ∈ droppedSave [] ++ lastSave, a.Timely := by
    simp [droppedSave, lastSave, Action.Timely, clock]
  have fair : Fair ⟨.plain, false⟩ true (.start (.plain master) none (.empty .root)) (droppedSave [] ++ lastSave) := by
    rintro t a u ⟨before, after, split, -⟩ overtakes
    cases a with
    | finishLoose supply =>
      have member : Action.finishLoose supply ∈ droppedSave [] ++ lastSave := by simp [split]
      simp [droppedSave, lastSave] at member
    | _ => exact overtakes.elim
  have whole := run_append.mpr ⟨_, (run_droppedSave master).1, ran⟩
  exact ⟨_, s, restored, loaded, timely, whole, ended,
    (file_keeps_up_iff clock restored loaded timely whole).2.mpr fair⟩

/-- The server has stopped, its last save has succeeded and the key is in the file. Then the write of the clock ends,
and the file is that of the empty vault again. -/
theorem late_write_overtakes : ∃ v t s, Vault.load [112] ⟨8, 1, 1⟩ none .plain = .ok v ∧ v.count = 0 ∧
    run ⟨.plain, false⟩ true (.start v none (.empty .root)) (droppedSave [.write] ++ lastSave) = some t ∧
    t.phase = .ended (.ok ()) ∧ t.vault.count = 1 ∧ Keeper.plain.restore t.disk = .ok (some t.vault.snapshot) ∧
    step ⟨.plain, false⟩ true t (.finishLoose undisturbed) = some s ∧ s.phase = t.phase ∧ s.vault = t.vault ∧
    Keeper.plain.restore s.disk = .ok (some v.snapshot) ∧ ¬KeepsUp ⟨.plain, false⟩ true
      (.start v none (.empty .root)) (droppedSave [.write] ++ lastSave ++ [.finishLoose undisturbed]) s := by
  have clock : Draw.plain.now.Valid := by decide
  have restored : Keeper.plain.restore (.empty .root) = .ok none := rfl
  obtain ⟨master, loaded⟩ := Vault.load_plain
  have sound := (Service.keeps_loaded clock restored loaded).1
  have after : (stored master).Sound [112] := sound.after clock _
  obtain ⟨b, made⟩ := archive_stored master
  obtain ⟨saved, ready⟩ := ready_empty.save made
  obtain ⟨t, ran, ended, vault, loose, disk⟩ :=
    run_lastSave (s := aboutToSave master (some ⟨.plain master, 0⟩)) rfl rfl saved
  change t.vault = stored master at vault
  change t.disk = (Keeper.plain.save .smooth (stored master).snapshot .plain (.empty .root)).disk at disk
  obtain ⟨c, old⟩ := archive_new master
  rw [← disk] at ready
  have overwritten := (ready.save old).1
  obtain ⟨s, went, phase, same, disk'⟩ := step_finishLoose loose overwritten
  have file : Keeper.plain.restore t.disk = .ok (some t.vault.snapshot) := by
    rw [disk, vault]
    exact Keeper.restore_save after.saved saved
  have back : Keeper.plain.restore s.disk = .ok (some (Vault.plain master).snapshot) := by
    rw [disk']
    exact Keeper.restore_save sound.saved overwritten
  have one : t.vault.count = 1 := by
    rw [vault, stored_eq]
    rfl
  have none : (Vault.plain master).count = 0 := rfl
  refine ⟨_, t, s, loaded, none, run_append.mpr ⟨_, (run_droppedSave master).2, ran⟩, ended, one, file, went, phase,
    same, back, fun ⟨_, promised⟩ => ?_⟩
  have stands := promised rfl (phase.trans ended)
  rw [same] at stands
  have equal : (Vault.plain master).snapshot = t.vault.snapshot :=
    Option.some.inj (Except.ok.inj (back.symm.trans stands))
  have counts : (Vault.plain master).count = t.vault.count := congrArg (fun saved => saved.store.size) equal
  exact absurd (none.symm.trans (counts.trans one)) Nat.zero_ne_one

end Examples

end Custody.Schedule
