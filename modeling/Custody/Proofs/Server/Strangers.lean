import Custody.Proofs.Connection
import Custody.Proofs.Keeper
import Custody.Proofs.Vault.Reopening
import Custody.Server
import Mathlib.Data.List.Basic

/-!
A server and the strangers among its guests. Whoever is not authenticated sees nothing of the vault and
leaves nothing in it, and the other guests are served as if the stranger had never sent anything.
-/

namespace Custody.Server

def follow (s : Server) (events : List (Event × (Nat → Supply))) : Server :=
  events.foldl (fun s e => s.step e.2 e.1) s

theorem run_eq_follow (chance : Nat → Nat → Supply) (s : Server) (events : List Event) :
    s.run chance events = s.follow (events.zipIdx.map fun e => (e.1, chance e.2)) := by
  rw [run, follow, List.foldl_map]

def heardOf (id : Nat) (chance : Nat → Supply) (change : Stream → Stream) (s : Server) :
    List (SessionState × Request) :=
  match s.guest? id with
  | some g => Connection.heard s.host chance 0 s.held { g.connection with stream := change g.connection.stream }
  | none => []

def heardIn (id : Nat) (s : Server) : Event × (Nat → Supply) → List (SessionState × Request)
  | (.arrive i b, chance) => if i = id then s.heardOf id chance (·.feed b) else []
  | (.finish i, chance) => if i = id then s.heardOf id chance (·.finish) else []
  | (.connect _ _ _, _) | (.wait _, _) => []

theorem heardIn_arrive (id : Nat) (s : Server) (b : Bytes) (chance : Nat → Supply) :
    s.heardIn id (.arrive id b, chance) = s.heardOf id chance (·.feed b) := if_pos rfl

theorem heardIn_finish (id : Nat) (s : Server) (chance : Nat → Supply) :
    s.heardIn id (.finish id, chance) = s.heardOf id chance (·.finish) := if_pos rfl

/-- The requests of a guest that are answered in a row of events, each with the state of the session it
meets. -/
def heard (id : Nat) (s : Server) : List (Event × (Nat → Supply)) → List (SessionState × Request)
  | [] => []
  | e :: rest => s.heardIn id e ++ heard id (s.step e.2 e.1) rest

/-- No request of this guest opens its session. -/
def Stranger (id : Nat) (s : Server) (events : List (Event × (Nat → Supply))) : Prop :=
  ∀ p ∈ s.heard id events, ¬s.host.gateway.Admits p.1 p.2

def Event.isArrivalOf (id : Nat) : Event → Bool
  | .arrive i _ => i == id
  | .connect _ _ _ | .finish _ | .wait _ => false

def mute (id : Nat) (events : List (Event × (Nat → Supply))) : List (Event × (Nat → Supply)) :=
  events.filter fun e => !e.1.isArrivalOf id

section Guests

variable {host : Host} {chance : Nat → Supply} {clock : Nat} {change : Stream → Stream} {id : Nat}

theorem serveAmong_filter {q : Nat → Bool} (kept : q id = true) (held : Holdings) (gs : List Guest) :
    (serveAmong host chance clock change id held gs).1.filter (fun g => q g.id) =
        (serveAmong host chance clock change id held (gs.filter fun g => q g.id)).1 ∧
      (serveAmong host chance clock change id held gs).2 =
        (serveAmong host chance clock change id held (gs.filter fun g => q g.id)).2 := by
  induction gs with
  | nil => exact ⟨rfl, rfl⟩
  | cons g rest ih =>
    by_cases same : g.id = id
    · have still : q (serveGuest host chance clock change held g).1.id = true := same ▸ kept
      simp only [List.filter_cons, kept, if_true, serveAmong, same, still, and_self]
    · by_cases here : q g.id = true
      · simp only [List.filter_cons, here, if_true, serveAmong, same, if_false, ih, and_self]
      · simp only [List.filter_cons, here, serveAmong, same, if_false, ih, and_self, Bool.false_eq_true]

theorem serveAmong_others {q : Nat → Bool} (left : q id = false) (held : Holdings) (gs : List Guest) :
    (serveAmong host chance clock change id held gs).1.filter (fun g => q g.id) =
      gs.filter fun g => q g.id := by
  induction gs with
  | nil => rfl
  | cons g rest ih =>
    by_cases same : g.id = id
    · have still : q (serveGuest host chance clock change held g).1.id = false := same ▸ left
      simp only [serveAmong, same, if_true, List.filter_cons, left, still, Bool.false_eq_true, if_false]
    · simp only [serveAmong, same, if_false, List.filter_cons, ih]

theorem serveAmong_blind {P : Connection → Prop} {gs : List Guest} (all : ∀ g ∈ gs, P g.connection)
    (first : ∀ g, gs.find? (·.id == id) = some g → ∃ d n, P d ∧ ∀ chance held k,
      Connection.serve host chance k held { g.connection with stream := change g.connection.stream } =
        ⟨d, held, k + n⟩) :
    ∃ after : List Guest, (∀ g ∈ after, P g.connection) ∧
      ∀ chance held, serveAmong host chance clock change id held gs = (after, held) := by
  induction gs with
  | nil => exact ⟨[], nofun, fun _ _ => rfl⟩
  | cons g rest ih =>
    obtain ⟨head, tail⟩ := List.forall_mem_cons.mp all
    by_cases same : g.id = id
    · obtain ⟨d, n, good, served⟩ := first g (by simp [same])
      refine ⟨⟨g.id, d, if 0 < n then clock else g.since⟩ :: rest, ?_, fun chance held => ?_⟩
      · exact List.forall_mem_cons.mpr ⟨good, tail⟩
      · simp only [serveAmong, same, if_true, serveGuest, served, Nat.zero_add]
    · obtain ⟨after, good, served⟩ := ih tail fun h found => first h (by simp [same, found])
      refine ⟨g :: after, List.forall_mem_cons.mpr ⟨head, good⟩, fun chance held => ?_⟩
      simp only [serveAmong, same, if_false, served]

end Guests

def part (q : Nat → Bool) (s : Server) : List Guest := s.guests.filter fun g => q g.id

section Part

variable {q : Nat → Bool} {s : Server} {chance : Nat → Supply} {i : Nat}

theorem find?_part {id : Nat} (kept : q id = true) : (s.part q).find? (·.id == id) = s.guest? id := by
  rw [part, List.find?_filter, guest?]
  congr 1
  funext g
  by_cases same : g.id = id
  · simp [same, kept]
  · simp [same]

theorem attend_kept (kept : q i = true) (change : Stream → Stream) :
    (s.attend chance change i).part q =
        (serveAmong s.host chance s.clock change i s.held (s.part q)).1 ∧
      (s.attend chance change i).held =
        (serveAmong s.host chance s.clock change i s.held (s.part q)).2 :=
  serveAmong_filter kept s.held s.guests

theorem attend_left (left : q i = false) (change : Stream → Stream) :
    (s.attend chance change i).part q = s.part q :=
  serveAmong_others left s.held s.guests

theorem connect_part (handle : Bytes.Sized 16) (peer : Address) :
    (s.step chance (.connect i handle peer)).part q =
      s.part q ++ [⟨i, .accept s.host (.start handle peer), s.clock⟩].filter fun g => q g.id :=
  List.filter_append ..

theorem saveIfDue_eq (supply : Supply) (s : Server) :
    ∃ held due, s.saveIfDue supply = { s with held, due } := by
  unfold saveIfDue
  split
  · split
    · exact ⟨_, _, rfl⟩
    · exact ⟨_, _, rfl⟩
  · exact ⟨_, _, rfl⟩

theorem saveIfDue_guests (supply : Supply) (guests : List Guest) (s : Server) :
    saveIfDue supply { s with guests } = { s.saveIfDue supply with guests } := by
  unfold saveIfDue
  dsimp only
  split
  · split <;> rfl
  · rfl

theorem wait_eq (seconds : Nat) : ∃ held due, s.step chance (.wait seconds) = { s with
    clock := s.clock + seconds
    guests := s.guests.map (Guest.unlessSilent s.patience (s.clock + seconds))
    held, due } :=
  saveIfDue_eq (chance 0) { s with
    clock := s.clock + seconds
    guests := s.guests.map (Guest.unlessSilent s.patience (s.clock + seconds)) }

theorem unlessSilent_id (patience : Option Nat) (clock : Nat) (g : Guest) :
    (Guest.unlessSilent patience clock g).id = g.id := by
  unfold Guest.unlessSilent
  split
  · split <;> rfl
  · rfl

theorem wait_part (seconds : Nat) : (s.step chance (.wait seconds)).part q =
    (s.part q).map (Guest.unlessSilent s.patience (s.clock + seconds)) := by
  obtain ⟨held, due, waited⟩ := @wait_eq s chance seconds
  rw [waited]
  simp only [part, List.filter_map, Function.comp_def, unlessSilent_id]

theorem connect_keeps {P : Connection → Prop} {handle : Bytes.Sized 16} {peer : Address}
    (all : ∀ g ∈ s.part q, P g.connection) (fresh : P (.accept s.host (.start handle peer))) :
    ∀ g ∈ (s.step chance (.connect i handle peer)).part q, P g.connection := by
  intro g member
  rw [connect_part] at member
  obtain before | new := List.mem_append.mp member
  · exact all g before
  · cases List.mem_singleton.mp (List.mem_filter.mp new).1
    exact fresh

theorem wait_keeps {P : Connection → Prop} {seconds : Nat} (all : ∀ g ∈ s.part q, P g.connection)
    (shut : ∀ c, P c → P c.shut) : ∀ g ∈ (s.step chance (.wait seconds)).part q, P g.connection := by
  intro h member
  rw [wait_part] at member
  obtain ⟨g, found, rfl⟩ := List.mem_map.mp member
  unfold Guest.unlessSilent
  split
  · split
    · exact shut _ (all g found)
    · exact all g found
  · exact all g found

end Part

/-- Two servers that differ, as far as this stranger can tell, in nothing. -/
structure SameTo (id : Nat) (s t : Server) : Prop where
  host : t.host = s.host
  patience : t.patience = s.patience
  clock : t.clock = s.clock
  guests : t.part (· == id) = s.part (· == id)
  outside : ∀ g ∈ s.part (· == id), g.connection.Outside

/-- Two servers, the second of which has never heard anything of this stranger. -/
structure WithoutTrace (id : Nat) (s t : Server) : Prop where
  rest : t = { s with guests := t.guests }
  others : t.part (· != id) = s.part (· != id)
  outside : ∀ g ∈ s.part (· == id), g.connection.Outside
  quiet : ∀ g ∈ t.part (· == id), g.connection.Quiet

section Stranger

variable {id : Nat} {s t : Server} {chance : Nat → Supply} {change : Stream → Stream}

theorem outside_fresh (host : Host) (handle : Bytes.Sized 16) (peer : Address) :
    (Connection.accept host (.start handle peer)).Outside :=
  (by decide : SessionState.unauthenticated ≠ .authenticated)

theorem serveAmong_stranger (outside : ∀ g ∈ s.part (· == id), g.connection.Outside)
    (refused : ∀ p ∈ s.heardOf id chance change, ¬s.host.gateway.Admits p.1 p.2) :
    ∃ after : List Guest, (∀ g ∈ after, g.connection.Outside) ∧ ∀ chance held,
      serveAmong s.host chance s.clock change id held (s.part (· == id)) = (after, held) := by
  refine serveAmong_blind outside fun g first => ?_
  have guest : s.guest? id = some g := by
    rw [← first]
    exact (find?_part (q := (· == id)) (beq_self_eq_true id)).symm
  have heard : ∀ p ∈ Connection.heard s.host chance 0 s.held
      { g.connection with stream := change g.connection.stream }, ¬s.host.gateway.Admits p.1 p.2 := by
    simpa only [heardOf, guest] using refused
  exact Connection.serve_stranger (outside g (List.mem_of_find?_eq_some first)) heard

theorem serveAmong_quiet (host : Host) (clock : Nat) {gs : List Guest}
    (quiet : ∀ g ∈ gs, g.connection.Quiet) :
    ∃ after : List Guest, (∀ g ∈ after, g.connection.Quiet) ∧ ∀ chance held,
      serveAmong host chance clock (·.finish) id held gs = (after, held) := by
  refine serveAmong_blind quiet fun g first => ?_
  obtain ⟨outside, empty⟩ := quiet g (List.mem_of_find?_eq_some first)
  obtain ⟨d, still, served⟩ := @Connection.serve_quiet host
    { g.connection with stream := g.connection.stream.finish } ⟨outside, empty⟩
  exact ⟨d, 0, still, served⟩

/-! What a stranger sees. -/

theorem SameTo.attend_self (same : SameTo id s t)
    (refused : ∀ p ∈ s.heardOf id chance change, ¬s.host.gateway.Admits p.1 p.2) :
    SameTo id (s.attend chance change id) (t.attend chance change id) := by
  obtain ⟨after, outside, served⟩ := serveAmong_stranger same.outside refused
  have kept : (id == id) = true := beq_self_eq_true id
  have first : (s.attend chance change id).part (· == id) = after := by
    rw [(attend_kept (q := (· == id)) kept change).1, served]
  have second : (t.attend chance change id).part (· == id) = after := by
    rw [(attend_kept (q := (· == id)) kept change).1, same.host, same.clock, same.guests, served]
  exact ⟨same.host, same.patience, same.clock, second.trans first.symm, first ▸ outside⟩

theorem SameTo.attend_other {i : Nat} (same : SameTo id s t) (other : i ≠ id) :
    SameTo id (s.attend chance change i) (t.attend chance change i) := by
  have left : (i == id) = false := beq_false_of_ne other
  have first : (s.attend chance change i).part (· == id) = s.part (· == id) :=
    attend_left (q := (· == id)) left change
  have second : (t.attend chance change i).part (· == id) = t.part (· == id) :=
    attend_left (q := (· == id)) left change
  exact ⟨same.host, same.patience, same.clock, by rw [first, second, same.guests], first ▸ same.outside⟩

theorem SameTo.connect (same : SameTo id s t) (i : Nat) (handle : Bytes.Sized 16) (peer : Address) :
    SameTo id (s.step chance (.connect i handle peer)) (t.step chance (.connect i handle peer)) := by
  refine ⟨same.host, same.patience, same.clock, ?_, ?_⟩
  · rw [connect_part, connect_part, same.guests, same.host, same.clock]
  · exact connect_keeps same.outside (outside_fresh s.host handle peer)

theorem SameTo.wait (same : SameTo id s t) (seconds : Nat) :
    SameTo id (s.step chance (.wait seconds)) (t.step chance (.wait seconds)) := by
  have guests : (t.step chance (.wait seconds)).part (· == id) =
      (s.step chance (.wait seconds)).part (· == id) := by
    rw [wait_part, wait_part, same.guests, same.patience, same.clock]
  have outside : ∀ g ∈ (s.step chance (.wait seconds)).part (· == id), g.connection.Outside :=
    wait_keeps same.outside fun c _ => Connection.outside_shut c
  obtain ⟨held, due, first⟩ := @wait_eq s chance seconds
  obtain ⟨vault, next, second⟩ := @wait_eq t chance seconds
  refine ⟨?_, ?_, ?_, guests, outside⟩
  · rw [first, second]
    exact same.host
  · rw [first, second]
    exact same.patience
  · rw [first, second]
    exact congrArg (· + seconds) same.clock

theorem SameTo.step (same : SameTo id s t) (e : Event × (Nat → Supply))
    (refused : ∀ p ∈ s.heardIn id e, ¬s.host.gateway.Admits p.1 p.2) :
    SameTo id (s.step e.2 e.1) (t.step e.2 e.1) := by
  obtain ⟨event, chance⟩ := e
  cases event with
  | connect i handle peer => exact same.connect i handle peer
  | arrive i b =>
    by_cases self : i = id
    · subst self
      rw [heardIn_arrive] at refused
      exact same.attend_self refused
    · exact same.attend_other self
  | finish i =>
    by_cases self : i = id
    · subst self
      rw [heardIn_finish] at refused
      exact same.attend_self refused
    · exact same.attend_other self
  | wait seconds => exact same.wait seconds

theorem step_host (e : Event × (Nat → Supply)) : (s.step e.2 e.1).host = s.host := by
  obtain ⟨event, chance⟩ := e
  cases event with
  | connect | arrive | finish => rfl
  | wait seconds =>
    obtain ⟨held, due, waited⟩ := @wait_eq s chance seconds
    rw [waited]

theorem Stranger.uncons {e : Event × (Nat → Supply)} {rest : List (Event × (Nat → Supply))}
    (stranger : s.Stranger id (e :: rest)) :
    (∀ p ∈ s.heardIn id e, ¬s.host.gateway.Admits p.1 p.2) ∧ (s.step e.2 e.1).Stranger id rest := by
  refine ⟨fun p member => stranger p (List.mem_append_left _ member), fun p member => ?_⟩
  rw [step_host]
  exact stranger p (List.mem_append_right _ member)

theorem SameTo.follow {events : List (Event × (Nat → Supply))} (same : SameTo id s t)
    (stranger : s.Stranger id events) : SameTo id (s.follow events) (t.follow events) := by
  induction events generalizing s t with
  | nil => exact same
  | cons e rest ih =>
    obtain ⟨refused, later⟩ := stranger.uncons
    exact ih (same.step e refused) later

/-! What a stranger leaves. -/

theorem WithoutTrace.host (without : WithoutTrace id s t) : t.host = s.host := by rw [without.rest]

theorem WithoutTrace.clock (without : WithoutTrace id s t) : t.clock = s.clock := by rw [without.rest]

theorem WithoutTrace.held (without : WithoutTrace id s t) : t.held = s.held := by rw [without.rest]

theorem WithoutTrace.attend_both {i : Nat} (without : WithoutTrace id s t)
    (held : (t.attend chance change i).held = (s.attend chance change i).held) :
    t.attend chance change i =
      { s.attend chance change i with guests := (t.attend chance change i).guests } :=
  calc t.attend chance change i
      = { t with
          guests := (t.attend chance change i).guests
          held := (t.attend chance change i).held } := rfl
    _ = { s with
          guests := (t.attend chance change i).guests
          held := (t.attend chance change i).held } :=
        congrArg (fun u : Server => { u with
          guests := (t.attend chance change i).guests
          held := (t.attend chance change i).held }) without.rest
    _ = { s.attend chance change i with guests := (t.attend chance change i).guests } := by
        rw [held]
        rfl

theorem WithoutTrace.attend_other {i : Nat} (without : WithoutTrace id s t) (other : i ≠ id) :
    WithoutTrace id (s.attend chance change i) (t.attend chance change i) := by
  have kept : (i != id) = true := bne_iff_ne.mpr other
  have left : (i == id) = false := beq_false_of_ne other
  have first := @attend_kept (· != id) s chance i kept change
  have second := @attend_kept (· != id) t chance i kept change
  rw [without.host, without.clock, without.held, without.others, ← first.1, ← first.2] at second
  refine ⟨without.attend_both second.2, second.1, ?_, ?_⟩
  · rw [attend_left (q := (· == id)) left change]
    exact without.outside
  · rw [attend_left (q := (· == id)) left change]
    exact without.quiet

theorem attend_stranger (outside : ∀ g ∈ s.part (· == id), g.connection.Outside)
    (refused : ∀ p ∈ s.heardOf id chance change, ¬s.host.gateway.Admits p.1 p.2) :
    (∀ g ∈ (s.attend chance change id).part (· == id), g.connection.Outside) ∧
      (s.attend chance change id).held = s.held := by
  obtain ⟨after, still, served⟩ := serveAmong_stranger outside refused
  have attended := @attend_kept (· == id) s chance id (beq_self_eq_true id) change
  rw [served] at attended
  rw [attended.1]
  exact ⟨still, attended.2⟩

theorem attend_self_others : (s.attend chance change id).part (· != id) = s.part (· != id) :=
  attend_left (q := (· != id)) (bne_self_eq_false id) change

theorem WithoutTrace.arrive_self (without : WithoutTrace id s t)
    (refused : ∀ p ∈ s.heardOf id chance change, ¬s.host.gateway.Admits p.1 p.2) :
    WithoutTrace id (s.attend chance change id) t := by
  obtain ⟨outside, held⟩ := attend_stranger without.outside refused
  have rest : t = { s.attend chance change id with guests := t.guests } :=
    without.rest.trans (congrArg (fun held => { s with guests := t.guests, held }) held.symm)
  exact ⟨rest, without.others.trans attend_self_others.symm, outside, without.quiet⟩

theorem WithoutTrace.finish_self (without : WithoutTrace id s t)
    (refused : ∀ p ∈ s.heardOf id chance (·.finish), ¬s.host.gateway.Admits p.1 p.2) :
    WithoutTrace id (s.attend chance (·.finish) id) (t.attend chance (·.finish) id) := by
  obtain ⟨outside, held⟩ := attend_stranger without.outside refused
  obtain ⟨after, quiet, served⟩ := @serveAmong_quiet id t.host t.clock _ without.quiet
  have attended := @attend_kept (· == id) t chance id (beq_self_eq_true id) (·.finish)
  rw [served] at attended
  have same : (t.attend chance (·.finish) id).held = (s.attend chance (·.finish) id).held := by
    rw [attended.2, held, without.held]
  refine ⟨without.attend_both same, ?_, outside, attended.1 ▸ quiet⟩
  rw [attend_self_others, attend_self_others, without.others]

theorem WithoutTrace.wait (without : WithoutTrace id s t) (seconds : Nat) :
    WithoutTrace id (s.step chance (.wait seconds)) (t.step chance (.wait seconds)) := by
  have waited : t.step chance (.wait seconds) = { s.step chance (.wait seconds) with
      guests := t.guests.map (Guest.unlessSilent s.patience (s.clock + seconds)) } :=
    (congrArg (fun u : Server => u.step chance (.wait seconds)) without.rest).trans
      (saveIfDue_guests (chance 0) _ { s with
        clock := s.clock + seconds
        guests := s.guests.map (Guest.unlessSilent s.patience (s.clock + seconds)) })
  refine ⟨by rw [waited], ?_, ?_, ?_⟩
  · rw [wait_part, wait_part, without.others, without.clock, without.rest]
  · exact wait_keeps without.outside fun c _ => Connection.outside_shut c
  · exact wait_keeps without.quiet fun c quiet => ⟨Connection.outside_shut c, quiet.empty⟩

theorem quiet_fresh (host : Host) (handle : Bytes.Sized 16) (peer : Address) :
    (Connection.accept host (.start handle peer)).Quiet :=
  ⟨outside_fresh host handle peer, rfl⟩

theorem WithoutTrace.connect (without : WithoutTrace id s t) (i : Nat) (handle : Bytes.Sized 16)
    (peer : Address) :
    WithoutTrace id (s.step chance (.connect i handle peer)) (t.step chance (.connect i handle peer)) := by
  refine ⟨?_, ?_, ?_, ?_⟩
  · exact congrArg (fun u : Server => { u with guests := (t.step chance (.connect i handle peer)).guests })
      without.rest
  · rw [connect_part, connect_part, without.others, without.host, without.clock]
  · exact connect_keeps without.outside (outside_fresh s.host handle peer)
  · exact connect_keeps without.quiet (quiet_fresh t.host handle peer)

theorem WithoutTrace.step (without : WithoutTrace id s t) (e : Event × (Nat → Supply))
    (refused : ∀ p ∈ s.heardIn id e, ¬s.host.gateway.Admits p.1 p.2) :
    WithoutTrace id (s.step e.2 e.1) (if e.1.isArrivalOf id then t else t.step e.2 e.1) := by
  obtain ⟨event, chance⟩ := e
  cases event with
  | connect i handle peer => exact without.connect i handle peer
  | arrive i b =>
    by_cases self : i = id
    · subst self
      -- the second server takes no step here
      refine (if_pos (beq_self_eq_true i)).symm ▸ ?_
      rw [heardIn_arrive] at refused
      exact without.arrive_self refused
    · rw [if_neg (by simpa only [Event.isArrivalOf, beq_iff_eq] using self)]
      exact without.attend_other self
  | finish i =>
    by_cases self : i = id
    · subst self
      rw [heardIn_finish] at refused
      exact without.finish_self refused
    · exact without.attend_other self
  | wait seconds => exact without.wait seconds

theorem WithoutTrace.follow {events : List (Event × (Nat → Supply))} (without : WithoutTrace id s t)
    (stranger : s.Stranger id events) : WithoutTrace id (s.follow events) (t.follow (mute id events)) := by
  induction events generalizing s t with
  | nil => exact without
  | cons e rest ih =>
    obtain ⟨refused, later⟩ := stranger.uncons
    have stepped := ih (without.step e refused) later
    cases arrival : e.1.isArrivalOf id with
    | true =>
      have dropped : mute id (e :: rest) = mute id rest := List.filter_cons_of_neg (by simp [arrival])
      rw [arrival, if_pos rfl] at stepped
      rw [dropped]
      exact stepped
    | false =>
      have kept : mute id (e :: rest) = e :: mute id rest := List.filter_cons_of_pos (by simp [arrival])
      rw [arrival, if_neg Bool.false_ne_true] at stepped
      rw [kept]
      exact stepped

theorem Stranger.initial {events rest : List (Event × (Nat → Supply))}
    (stranger : s.Stranger id (events ++ rest)) : s.Stranger id events := by
  induction events generalizing s with
  | nil => exact nofun
  | cons e events ih =>
    obtain ⟨refused, later⟩ := stranger.uncons
    intro p member
    obtain now | after := List.mem_append.mp member
    · exact refused p now
    · rw [← step_host e]
      exact ih later p after

end Stranger

/-- A guest that never opens its session sees nothing of the vault and the disk, and leaves nothing in them
nor with the other guests: not after any event. -/
theorem stranger_is_blind_and_invisible {s : Server} {id : Nat} (absent : s.guest? id = none)
    {events done : List (Event × (Nat → Supply))} (stranger : s.Stranger id events)
    (reached : done <+: events) :
    (∀ held, ({ s with held }.follow done).guest? id = (s.follow done).guest? id) ∧
      (s.follow (mute id done)).held = (s.follow done).held ∧
      ∀ other, other ≠ id → (s.follow (mute id done)).guest? other = (s.follow done).guest? other := by
  obtain ⟨rest, rfl⟩ := reached
  have unopened := stranger.initial
  have none : s.part (· == id) = [] := by
    refine List.filter_eq_nil_iff.mpr fun g found => ?_
    exact List.find?_eq_none.mp absent g found
  have unseen : ∀ g ∈ s.part (· == id), g.connection.Quiet := by
    rw [none]
    exact fun g found => absurd found List.not_mem_nil
  have outside g found := (unseen g found).outside
  refine ⟨fun held => ?_, ?_⟩
  · have same : SameTo id s { s with held } := ⟨rfl, rfl, rfl, rfl, outside⟩
    have kept : (id == id) = true := beq_self_eq_true id
    rw [← find?_part (q := (· == id)) kept, (same.follow unopened).guests, find?_part (q := (· == id)) kept]
  · have traceless : WithoutTrace id s s := ⟨rfl, rfl, outside, unseen⟩
    have followed := traceless.follow unopened
    refine ⟨followed.held, fun other differs => ?_⟩
    have kept : (other != id) = true := bne_iff_ne.mpr differs
    rw [← find?_part (q := (· != id)) kept, followed.others, find?_part (q := (· != id)) kept]

def plain : Server where
  address := .four [127, 0, 0, 1] 5000
  host := ⟨.ofPassword [112], ⟨.plain, true⟩, 65536, .plain⟩
  patience := some 60
  period := none
  saveOnStop := false
  held := ⟨.plain Draw.plain.salt, .empty .root⟩
  guests := []
  clock := 0
  due := none

def knock (chance : Nat → Supply) : List (Event × (Nat → Supply)) :=
  [(.connect 0 ⟨List.replicate 16 0, rfl⟩ (.four [127, 0, 0, 1] 5001), chance),
    (.arrive 0 (Frame.encode (RequestFrame.codec.encode ⟨1, .auth "x"⟩)), chance)]

theorem stranger_is_blind_and_invisible_knock :
    let events := knock fun _ => ⟨.plain, .plain, .smooth⟩
    plain.guest? 0 = none ∧ plain.Stranger 0 events ∧ events <+: events ∧
      (∀ held, ({ plain with held }.follow events).guest? 0 = (plain.follow events).guest? 0) ∧
      (plain.follow (mute 0 events)).held = (plain.follow events).held ∧
      ∀ other, other ≠ 0 →
        (plain.follow (mute 0 events)).guest? other = (plain.follow events).guest? other := by
  intro events
  have refused : (plain.heard 0 events).all (fun p => ¬plain.host.gateway.Admits p.1 p.2) = true := by
    decide +kernel
  have stranger : plain.Stranger 0 events := fun p member =>
    of_decide_eq_true (List.all_eq_true.mp refused p member)
  have whole : events <+: events := List.prefix_refl events
  exact ⟨rfl, stranger, whole, stranger_is_blind_and_invisible rfl stranger whole⟩

end Custody.Server
