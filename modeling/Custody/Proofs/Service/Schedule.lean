import Custody.Proofs.Keeper.Interruption
import Custody.Proofs.Service.Durability
import Custody.Server
import Mathlib.Control.Monad.Basic

/-!
Saves that overlap in time. Clients, a clock and at last the server itself save one vault to one file; a guard
lets one of them at a time copy the vault and write the file. A server that stops waits for its clients, gives up
the task of the clock and saves once more. The task is dropped some time later: it lets go of the guard, but a
write that it has begun goes on.
-/

namespace Custody

inductive Saver where
  /-- A client's connection, after a change or on request. -/
  | guest (id : Nat)
  | clock
  /-- The server, when it stops. -/
  | last
deriving DecidableEq, Repr

namespace Schedule

/-- The vault as a save has copied it, and the number of changes that had been made to it by then. -/
structure Copy where
  vault : Vault
  number : Nat

inductive Progress where
  | begun
  | copied (c : Copy)
  | writing (c : Copy)
  | written (r : Except Failure Unit)

def Progress.copy? : Progress → Option Copy
  | .copied c | .writing c => some c
  | .begun | .written _ => none

inductive Phase where
  | serving
  /-- All clients have gone. -/
  | joined
  /-- The task of the clock is given up, and the server saves. -/
  | saving
  | ended (r : Except Failure Unit)
deriving DecidableEq

/-- From when on the task of the clock may be dropped. -/
def Phase.late : Phase → Bool
  | .serving | .joined => false
  | .saving | .ended _ => true

structure State where
  vault : Vault
  /-- What the vault was before each change, the first one first. -/
  past : List Vault
  disk : Disk
  /-- The number of changes that the file has seen; nothing if there is no file. -/
  file : Option Nat
  waiting : List Saver
  guard : Option (Saver × Progress)
  /-- The write of the clock, if its task was dropped in the course of it. -/
  loose : Option Copy
  dropped : Bool
  phase : Phase

namespace State

def start (v : Vault) (saved : Option Snapshot) (disk : Disk) : State :=
  ⟨v, [], disk, saved.map fun _ => 0, [], none, none, false, .serving⟩

def changes (s : State) : Nat := s.past.length

/-- The vault after a number of changes. -/
def version? (s : State) (n : Nat) : Option Vault := (s.past ++ [s.vault])[n]?

def busy (s : State) : List Saver := s.waiting ++ (s.guard.map Prod.fst).toList

def serve (s : State) (draw : Draw) (r : Request) : State :=
  { s with
    vault := s.vault.after draw r
    past := if s.vault.changes r then s.past ++ [s.vault] else s.past }

def queue (s : State) (who : Saver) : State := { s with waiting := s.waiting ++ [who] }

def hold (s : State) (who : Saver) (p : Progress) : State := { s with guard := some (who, p) }

def saving (s : State) (k : Keeper) (supply : Supply) (c : Copy) : Keeper.Saving :=
  k.save supply.plan c.vault.snapshot supply.saving s.disk

/-- The archive of a copy takes the place of the file. -/
abbrev Places (s : State) (k : Keeper) (supply : Supply) (c : Copy) : Prop :=
  k.Reaches supply.plan c.vault.snapshot supply.saving s.disk

def replace (s : State) (k : Keeper) (supply : Supply) (c : Copy) : State :=
  { s with
    disk := (s.saving k supply c).disk
    file := if s.Places k supply c then some c.number else s.file }

/-- Drops the task of the clock. It gives back the guard, and only its write is left. -/
def dropClock (s : State) : State :=
  let rest := { s with waiting := s.waiting.filter (· ≠ Saver.clock), dropped := true }
  match s.guard with
  | some (.clock, .writing c) => { rest with guard := none, loose := some c }
  | some (.clock, _) => { rest with guard := none }
  | _ => rest

end State

inductive Action where
  /-- A client's request is served. If it is one that saves, the client then waits for the guard. -/
  | request (id : Nat) (draw : Draw) (r : Request)
  /-- The clock has come to the time of a save. -/
  | tick
  | lock (who : Saver)
  | copy
  | write
  /-- A write comes to its end, in success or in failure. A crash is no end of it. -/
  | finish (supply : Supply)
  | release
  /-- The last client has gone. -/
  | join
  /-- The task of the clock is given up. The server saves, if that is wanted, and else it has stopped. -/
  | stop
  | drop
  /-- The write of the task that was dropped comes to its end. -/
  | finishLoose (supply : Supply)

def step (service : Service) (saveOnStop : Bool) (s : State) : Action → Option State
  | .request id draw r =>
    if s.phase = .serving ∧ .guest id ∉ s.busy then
      some (if service.saves s.vault r then (s.serve draw r).queue (.guest id) else s.serve draw r)
    else none
  | .tick => if s.dropped = false ∧ .clock ∉ s.busy then some (s.queue .clock) else none
  | .lock who =>
    if s.guard.isNone ∧ who ∈ s.waiting then
      some ({ s with waiting := s.waiting.erase who }.hold who .begun)
    else none
  | .copy =>
    match s.guard with
    | some (who, .begun) => some (s.hold who (.copied ⟨s.vault, s.changes⟩))
    | _ => none
  | .write =>
    match s.guard with
    | some (who, .copied c) => some (s.hold who (.writing c))
    | _ => none
  | .finish supply =>
    match s.guard with
    | some (who, .writing c) =>
      (s.saving service.keeper supply c).result.map fun r =>
        (s.replace service.keeper supply c).hold who (.written r)
    | _ => none
  | .release =>
    match s.guard with
    | some (who, .written r) =>
      some { s with guard := none, phase := if who = .last then .ended r else s.phase }
    | _ => none
  | .join =>
    if s.phase = .serving ∧ ∀ who ∈ s.busy, who = .clock then some { s with phase := .joined } else none
  | .stop =>
    if s.phase = .joined then
      some (if saveOnStop then { s.queue .last with phase := .saving }
        else { s with phase := .ended (.ok ()) })
    else none
  | .drop => if s.phase.late ∧ s.dropped = false then some s.dropClock else none
  | .finishLoose supply =>
    match s.loose with
    | some c =>
      (s.saving service.keeper supply c).result.map fun _ =>
        { s.replace service.keeper supply c with loose := none }
    | none => none

def run (service : Service) (saveOnStop : Bool) (s : State) (actions : List Action) : Option State :=
  actions.foldlM (step service saveOnStop) s

def Steps (service : Service) (saveOnStop : Bool) (s : State) (actions : List Action) (t : State) (a : Action)
    (u : State) : Prop :=
  ∃ before after, actions = before ++ a :: after ∧ run service saveOnStop s before = some t ∧
    step service saveOnStop t a = some u

variable {service : Service} {saveOnStop : Bool} {s t u : State} {a : Action} {actions : List Action}

theorem Steps.done (went : Steps service saveOnStop s actions t a u) : step service saveOnStop t a = some u := by
  obtain ⟨before, after, -, -, done⟩ := went
  exact done

theorem run_cons : run service saveOnStop s (a :: actions) = some u ↔
    ∃ t, step service saveOnStop s a = some t ∧ run service saveOnStop t actions = some u := by
  rw [run, List.foldlM_cons]
  exact Option.bind_eq_some_iff

theorem run_append {more : List Action} : run service saveOnStop s (actions ++ more) = some u ↔
    ∃ t, run service saveOnStop s actions = some t ∧ run service saveOnStop t more = some u := by
  rw [run, List.foldlM_append]
  exact Option.bind_eq_some_iff

/-- What holds at first and is kept by each step of a run holds before each of its steps and at its end. -/
theorem run_invariant {P : State → Prop}
    (keeps : ∀ t a u, Steps service saveOnStop s actions t a u → P t → P u) (start : P s) :
    (∀ u, run service saveOnStop s actions = some u → P u) ∧
      ∀ t a u, Steps service saveOnStop s actions t a u → P t := by
  have reached : ∀ row more, actions = row ++ more → ∀ u, run service saveOnStop s row = some u → P u := by
    intro row
    -- from the end of the row, for a step is one of the run by what goes before it
    induction row using List.reverseRecOn with
    | nil =>
      intro more _ u ran
      cases ran
      exact start
    | append_singleton row a ih =>
      intro more split u ran
      obtain ⟨t, first, rest⟩ := run_append.mp ran
      obtain ⟨x, took, done⟩ := run_cons.mp rest
      cases done
      have split : actions = row ++ a :: more := by rw [split, List.append_assoc]; rfl
      exact keeps t a u ⟨row, more, split, first, took⟩ (ih (a :: more) split t first)
  refine ⟨reached actions [] (List.append_nil _).symm, ?_⟩
  rintro t a u ⟨before, after, split, ran, -⟩
  exact reached before (a :: after) split t ran

inductive Took (service : Service) (saveOnStop : Bool) (s : State) : Action → State → Prop where
  | served {id : Nat} {draw : Draw} {r : Request} (phase : s.phase = .serving)
      (unsaved : service.saves s.vault r = false) : Took service saveOnStop s (.request id draw r) (s.serve draw r)
  | asked {id : Nat} {draw : Draw} {r : Request} (phase : s.phase = .serving)
      (saves : service.saves s.vault r = true) :
      Took service saveOnStop s (.request id draw r) ((s.serve draw r).queue (.guest id))
  | ticked (kept : s.dropped = false) : Took service saveOnStop s .tick (s.queue .clock)
  | locked {who : Saver} (free : s.guard = none) (waits : who ∈ s.waiting) :
      Took service saveOnStop s (.lock who) ({ s with waiting := s.waiting.erase who }.hold who .begun)
  | copied {who : Saver} (held : s.guard = some (who, .begun)) :
      Took service saveOnStop s .copy (s.hold who (.copied ⟨s.vault, s.changes⟩))
  | began {who : Saver} {c : Copy} (held : s.guard = some (who, .copied c)) :
      Took service saveOnStop s .write (s.hold who (.writing c))
  | finished {who : Saver} {c : Copy} {supply : Supply} {r : Except Failure Unit}
      (held : s.guard = some (who, .writing c)) (result : (s.saving service.keeper supply c).result = some r) :
      Took service saveOnStop s (.finish supply) ((s.replace service.keeper supply c).hold who (.written r))
  | released {who : Saver} {r : Except Failure Unit} (held : s.guard = some (who, .written r))
      (other : who ≠ .last) : Took service saveOnStop s .release { s with guard := none }
  | ended {r : Except Failure Unit} (held : s.guard = some (.last, .written r)) :
      Took service saveOnStop s .release { s with guard := none, phase := .ended r }
  | joined (phase : s.phase = .serving) (alone : ∀ who ∈ s.busy, who = .clock) :
      Took service saveOnStop s .join { s with phase := .joined }
  | stopped (phase : s.phase = .joined) (wanted : saveOnStop = true) :
      Took service saveOnStop s .stop { s.queue .last with phase := .saving }
  | left (phase : s.phase = .joined) (unwanted : saveOnStop = false) :
      Took service saveOnStop s .stop { s with phase := .ended (.ok ()) }
  | loosened {c : Copy} (late : s.phase.late = true) (held : s.guard = some (.clock, .writing c)) :
      Took service saveOnStop s .drop
        { s with
          waiting := s.waiting.filter (· ≠ Saver.clock), dropped := true, guard := none, loose := some c }
  | freed {p : Progress} (late : s.phase.late = true) (held : s.guard = some (.clock, p))
      (unwritten : ∀ c, p ≠ .writing c) :
      Took service saveOnStop s .drop
        { s with waiting := s.waiting.filter (· ≠ Saver.clock), dropped := true, guard := none }
  | dropped (late : s.phase.late = true) (other : ∀ p, s.guard ≠ some (.clock, p)) :
      Took service saveOnStop s .drop { s with waiting := s.waiting.filter (· ≠ Saver.clock), dropped := true }
  | landed {c : Copy} {supply : Supply} {r : Except Failure Unit} (left : s.loose = some c)
      (result : (s.saving service.keeper supply c).result = some r) :
      Took service saveOnStop s (.finishLoose supply) { s.replace service.keeper supply c with loose := none }

theorem step_took (went : step service saveOnStop s a = some t) : Took service saveOnStop s a t := by
  cases a with
  | request id draw r =>
    simp only [step] at went
    split at went
    · rename_i may
      cases went
      cases saves : service.saves s.vault r with
      | true =>
        rw [if_pos rfl]
        exact .asked may.1 saves
      | false =>
        rw [if_neg Bool.false_ne_true]
        exact .served may.1 saves
    · cases went
  | tick =>
    simp only [step] at went
    split at went
    · rename_i may
      cases went
      exact .ticked may.1
    · cases went
  | lock who =>
    simp only [step] at went
    split at went
    · rename_i may
      cases went
      exact .locked (Option.isNone_iff_eq_none.mp may.1) may.2
    · cases went
  | copy =>
    simp only [step] at went
    split at went
    · rename_i held
      cases went
      exact .copied held
    · cases went
  | write =>
    simp only [step] at went
    split at went
    · rename_i held
      cases went
      exact .began held
    · cases went
  | finish supply =>
    simp only [step] at went
    split at went
    · rename_i held
      obtain ⟨r, result, rfl⟩ := Option.map_eq_some_iff.mp went
      exact .finished held result
    · cases went
  | release =>
    simp only [step] at went
    split at went
    · rename_i who r held
      cases went
      by_cases server : who = .last
      · subst server
        rw [if_pos rfl]
        exact .ended held
      · rw [if_neg server]
        exact .released held server
    · cases went
  | join =>
    simp only [step] at went
    split at went
    · rename_i may
      cases went
      exact .joined may.1 may.2
    · cases went
  | stop =>
    simp only [step] at went
    split at went
    · rename_i phase
      cases went
      cases wanted : saveOnStop with
      | true => exact .stopped phase rfl
      | false => exact .left phase rfl
    · cases went
  | drop =>
    simp only [step] at went
    split at went
    · rename_i may
      cases went
      simp only [State.dropClock]
      split
      · rename_i held
        exact .loosened may.1 held
      · rename_i unwritten held
        exact .freed may.1 held unwritten
      · rename_i other
        refine .dropped may.1 fun p held => ?_
        exact other p held
    · cases went
  | finishLoose supply =>
    simp only [step] at went
    split at went
    · rename_i left
      obtain ⟨r, result, rfl⟩ := Option.map_eq_some_iff.mp went
      exact .landed left result
    · cases went

section Alone

variable {who : Saver} {supply : Supply} {r : Except Failure Unit}

theorem run_save (waits : s.waiting = [who]) (free : s.guard = none)
    (result : (s.saving service.keeper supply ⟨s.vault, s.changes⟩).result = some r) :
    run service saveOnStop s [.lock who, .copy, .write, .finish supply, .release] =
      some { s.replace service.keeper supply ⟨s.vault, s.changes⟩ with
        waiting := [], guard := none, phase := if who = .last then .ended r else s.phase } := by
  have locks : step service saveOnStop s (.lock who) = some ({ s with waiting := [] }.hold who .begun) := by
    simp [step, free, waits]
  have finishes : step service saveOnStop
      ({ s with waiting := [] }.hold who (.writing ⟨s.vault, s.changes⟩)) (.finish supply) =
      some (({ s with waiting := [] }.replace service.keeper supply ⟨s.vault, s.changes⟩).hold who (.written r)) :=
    congrArg (Option.map _) result
  refine run_cons.mpr ⟨_, locks, run_cons.mpr ⟨_, rfl, run_cons.mpr ⟨_, rfl, run_cons.mpr ⟨_, finishes, rfl⟩⟩⟩⟩

structure Idle (s : State) : Prop where
  phase : s.phase = .serving
  waiting : s.waiting = []
  guard : s.guard = none

theorem idle_start (v : Vault) (saved : Option Snapshot) (disk : Disk) : Idle (.start v saved disk) := ⟨rfl, rfl, rfl⟩

theorem run_request (idle : Idle s) (request : Request)
    (ends : (service.keeper.save supply.plan (s.vault.after supply.draw request).snapshot supply.saving s.disk).result =
      some r) : ∃ row t, run service saveOnStop s row = some t ∧ Idle t ∧
        Holdings.mk t.vault t.disk = (service.handle supply ⟨s.vault, s.disk⟩ request).2 := by
  have asks : step service saveOnStop s (.request 0 supply.draw request) =
      some (if service.saves s.vault request then (s.serve supply.draw request).queue (.guest 0)
        else s.serve supply.draw request) := by
    simp [step, State.busy, idle.phase, idle.waiting, idle.guard]
  rw [Service.handle_held]
  cases saves : service.saves s.vault request with
  | true =>
    rw [saves, if_pos rfl] at asks
    have waits : ((s.serve supply.draw request).queue (.guest 0)).waiting = [.guest 0] :=
      congrArg (· ++ [Saver.guest 0]) idle.waiting
    have saved := @run_save service saveOnStop _ _ _ _ waits idle.guard ends
    refine ⟨_, _, run_cons.mpr ⟨_, asks, saved⟩, ⟨idle.phase, rfl, rfl⟩, ?_⟩
    rw [if_pos rfl, Service.save_held]
    rfl
  | false =>
    rw [saves, if_neg Bool.false_ne_true] at asks
    exact ⟨[_], _, run_cons.mpr ⟨_, asks, rfl⟩, ⟨idle.phase, idle.waiting, idle.guard⟩, rfl⟩

theorem run_answer (idle : Idle s) (requests : List (Supply × Request))
    (ends : ∀ q ∈ requests, ∀ step written, q.1.plan step ≠ some (.crash written)) :
    ∃ row t, run service saveOnStop s row = some t ∧ Idle t ∧
      Holdings.mk t.vault t.disk = (service.answer ⟨s.vault, s.disk⟩ requests).2 := by
  induction requests generalizing s with
  | nil => exact ⟨[], s, rfl, idle, rfl⟩
  | cons q rest ih =>
    obtain ⟨first, others⟩ := List.forall_mem_cons.mp ends
    obtain ⟨r, result⟩ := Keeper.save_ends first
    obtain ⟨row, t, ran, idle, same⟩ := @run_request service saveOnStop s _ _ idle q.2 result
    obtain ⟨more, u, later, last, held⟩ := ih idle others
    refine ⟨row ++ more, u, run_append.mpr ⟨t, ran, later⟩, last, ?_⟩
    rw [held, same]
    rfl

theorem run_stop (idle : Idle s) {server : Server} (held : server.held = ⟨s.vault, s.disk⟩)
    (uncrashed : ∀ step written, supply.plan step ≠ some (.crash written)) :
    ∃ row t, run server.host.service server.saveOnStop s row = some t ∧
      t.phase = .ended (server.stop supply).1 ∧ Holdings.mk t.vault t.disk = (server.stop supply).2.held := by
  have joins : step server.host.service server.saveOnStop s .join = some { s with phase := .joined } := by
    simp [step, State.busy, idle.phase, idle.waiting, idle.guard]
  cases wanted : server.saveOnStop with
  | false =>
    rw [wanted] at joins
    refine ⟨[.join, .stop], _, run_cons.mpr ⟨_, joins, rfl⟩, ?_, ?_⟩
    · simp [Server.stop, wanted]
    · simp [Server.stop, wanted, held]
  | true =>
    rw [wanted] at joins
    obtain ⟨r, result⟩ : ∃ r, (server.host.service.keeper.save supply.plan s.vault.snapshot supply.saving
        s.disk).result = some r := Keeper.save_ends uncrashed
    have waits : ({ s.queue .last with phase := .saving } : State).waiting = [.last] :=
      congrArg (· ++ [Saver.last]) idle.waiting
    have saved := @run_save server.host.service true _ _ _ _ waits idle.guard result
    have stops : step server.host.service true { s with phase := .joined } .stop =
      some { s.queue .last with phase := .saving } := rfl
    refine ⟨_, _, run_cons.mpr ⟨_, joins, run_cons.mpr ⟨_, stops, saved⟩⟩, ?_, ?_⟩
    · have told : (server.stop supply).1 = (server.host.service.save supply server.held).1.map fun _ => () := by
        simp only [Server.stop, wanted, if_true]
      rw [told, held, Service.save_told (h := ⟨s.vault, s.disk⟩) result]
      cases r <;> rfl
    · have kept : (server.stop supply).2.held = (server.host.service.save supply server.held).2 := by
        simp only [Server.stop, wanted, if_true]
      rw [kept, held, Service.save_held]
      rfl

/-- Whatever a server does when it answers requests one after another and then stops is a run. -/
theorem run_server (server : Server) (saved : Option Snapshot) (requests : List (Supply × Request))
    (ends : ∀ q ∈ requests, ∀ step written, q.1.plan step ≠ some (.crash written))
    (uncrashed : ∀ step written, supply.plan step ≠ some (.crash written)) :
    let answered := (server.host.service.answer server.held requests).2
    let stopped := { server with held := answered }.stop supply
    ∃ row t, run server.host.service server.saveOnStop (.start server.held.vault saved server.held.disk) row = some t ∧
      t.phase = .ended stopped.1 ∧ Holdings.mk t.vault t.disk = stopped.2.held := by
  intro answered stopped
  have idle := idle_start server.held.vault saved server.held.disk
  obtain ⟨row, t, ran, idle, held⟩ := @run_answer server.host.service server.saveOnStop _ idle requests ends
  obtain ⟨more, u, later, ended, last⟩ :=
    @run_stop t supply idle { server with held := answered } held.symm uncrashed
  exact ⟨row ++ more, u, run_append.mpr ⟨t, ran, later⟩, ended, last⟩

end Alone

end Schedule

end Custody
