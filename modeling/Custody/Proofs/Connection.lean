import Custody.Connection

/-!
Connections of strangers. As long as no request opens its session, what becomes of a connection depends on
what it has received and on nothing else, and it leaves the vault and the disk as they are.
-/

namespace Custody

def Gateway.Admits (g : Gateway) (state : SessionState) (r : Request) : Prop :=
  state = .unauthenticated ∧ ∃ password, r = .auth password ∧ g.verify (Bytes.ofText password) = true

instance (g : Gateway) (state : SessionState) (r : Request) : Decidable (g.Admits state r) :=
  match r with
  | .auth password =>
    decidable_of_iff (state = .unauthenticated ∧ g.verify (Bytes.ofText password) = true)
      ⟨fun ⟨unopened, right⟩ => ⟨unopened, password, rfl, right⟩, fun ⟨unopened, _, same, right⟩ => by
        cases same
        exact ⟨unopened, right⟩⟩
  | .put .. | .get _ | .delete _ | .list | .contains _ | .count | .clear | .save | .ping =>
    isFalse fun ⟨_, _, same, _⟩ => Request.noConfusion same

namespace Connection

/-- The request that the next turn answers, if it answers one, with the state of the session it meets. -/
def hears (host : Host) (c : Connection) : List (SessionState × Request) :=
  match c.stream.receive RequestFrame.codec host.wording with
  | (.message f, _) => [(c.session.state, f.request)]
  | _ => []

def heard (host : Host) (chance : Nat → Supply) (served : Nat) (held : Holdings) (c : Connection) :
    List (SessionState × Request) :=
  match h : c.turn host (chance served) held with
  | (.served, d, rest) =>
    have := weight_turn h
    c.hears host ++ d.heard host chance (served + 1) rest
  | _ => c.hears host
termination_by c.stream.inlet.weight

def Outside (c : Connection) : Prop := c.session.state ≠ .authenticated

/-- Nothing has been received that might be a request. -/
structure Quiet (c : Connection) : Prop where
  outside : c.Outside
  empty : c.stream.inlet.weight = 0

variable {host : Host} {c : Connection}

theorem outside_shut (c : Connection) : c.shut.Outside := nofun

theorem outside_reply (outside : c.Outside) (f : ResponseFrame) : (c.reply f).2.Outside := by
  unfold reply
  split
  · exact outside
  · exact outside_shut _

theorem respond_stranger {r : Request} (unopened : c.session.state = .unauthenticated)
    (refused : ¬host.gateway.Admits c.session.state r) :
    ∃ response d, Outside d ∧ ∀ supply held, c.respond host supply held r = (response, d, held) := by
  have refusal : c.session.authorize = .error .unauthorized := by
    rw [Session.authorize, Session.isAuthenticated, unopened]
    rfl
  cases r with
  | auth password =>
    have wrong : host.gateway.verify (Bytes.ofText password) = false := by
      refine Bool.eq_false_iff.mpr fun right => refused ⟨unopened, password, rfl, right⟩
    have closed : c.session.authenticate host.gateway (Bytes.ofText password) =
        (.error .authentication, c.session.close) := by
      rw [Session.authenticate, unopened]
      simp only [wrong]
      rfl
    exact ⟨.ofFailure .authentication, { c with session := c.session.close }, nofun, fun supply held => by
      simp only [respond, closed]⟩
  | put | get | delete | list | contains | count | clear | save | ping =>
    have outside : c.Outside := by
      rw [Outside, unopened]
      exact nofun
    exact ⟨.ofFailure .unauthorized, c, outside, fun supply held => by simp only [respond, refusal]⟩

theorem answer_stranger {f : RequestFrame} (unopened : c.session.state = .unauthenticated)
    (refused : ¬host.gateway.Admits c.session.state f.request) :
    ∃ t d, Outside d ∧ ∀ supply held, c.answer host supply held f = (t, d, held) := by
  obtain ⟨response, d, outside, responded⟩ := respond_stranger unopened refused
  have after := outside_reply outside ⟨f.id, response⟩
  generalize replied : d.reply ⟨f.id, response⟩ = q at after
  obtain ⟨t, e⟩ := q
  cases t with
  | served =>
    by_cases closed : e.session.state = .closed
    · exact ⟨.ended, e.shut, outside_shut e, fun supply held => by
        simp only [answer, responded, replied, closed, if_true]⟩
    · exact ⟨.served, e, after, fun supply held => by
        simp only [answer, responded, replied, closed, if_false]⟩
  | waiting => exact ⟨.waiting, e, after, fun supply held => by simp only [answer, responded, replied]⟩
  | ended => exact ⟨.ended, e, after, fun supply held => by simp only [answer, responded, replied]⟩

theorem turn_stranger (outside : c.Outside) (refused : ∀ p ∈ c.hears host, ¬host.gateway.Admits p.1 p.2) :
    ∃ t d, Outside d ∧ ∀ supply held, c.turn host supply held = (t, d, held) := by
  by_cases closed : c.session.state = .closed
  · exact ⟨.ended, c, outside, fun supply held => if_pos closed⟩
  · have unopened : c.session.state = .unauthenticated := by
      cases state : c.session.state with
      | unauthenticated => rfl
      | authenticated => exact absurd state outside
      | closed => exact absurd state closed
    generalize received : c.stream.receive RequestFrame.codec host.wording = q
    obtain ⟨r, stream⟩ := q
    cases r with
    | pending =>
      exact ⟨.waiting, { c with stream }, outside, fun supply held => by
        simp only [turn, closed, received, if_false]⟩
    | finished =>
      exact ⟨.ended, { c with stream }.shut, outside_shut _, fun supply held => by
        simp only [turn, closed, received, if_false]⟩
    | failed e =>
      by_cases protocol : ∃ why, e = .protocol why
      · obtain ⟨why, rfl⟩ := protocol
        have after := outside_reply (c := { c with stream }) outside ⟨0, .ofFailure (.protocol why)⟩
        generalize replied : reply { c with stream } ⟨0, .ofFailure (.protocol why)⟩ = q at after
        exact ⟨q.1, q.2, after, fun supply held => by simp only [turn, closed, received, if_false, replied]⟩
      · refine ⟨.ended, { c with stream }.shut, outside_shut _, fun supply held => ?_⟩
        simp only [turn, closed, received, if_false]
        split
        · exact absurd ⟨_, rfl⟩ protocol
        · rfl
    | message f =>
      have heard : (c.session.state, f.request) ∈ c.hears host := by simp [hears, received]
      obtain ⟨t, d, after, answered⟩ := answer_stranger (c := { c with stream }) unopened (refused _ heard)
      exact ⟨t, d, after, fun supply held => by simp only [turn, closed, received, if_false, answered]⟩

theorem serve_served {chance : Nat → Supply} {k : Nat} {held rest : Holdings} {d : Connection}
    (turned : c.turn host (chance k) held = (.served, d, rest)) :
    c.serve host chance k held = d.serve host chance (k + 1) rest := by
  rw [serve]
  split
  · rename_i same
    rw [turned] at same
    cases same
    rfl
  · rename_i other same
    rw [turned] at same
    cases same
    exact (other rfl).elim

theorem serve_stopped {chance : Nat → Supply} {k : Nat} {held rest : Holdings} {t : Turn} {d : Connection}
    (turned : c.turn host (chance k) held = (t, d, rest)) (stopped : t ≠ .served) :
    c.serve host chance k held = ⟨d, rest, k⟩ := by
  rw [serve]
  split
  · rename_i same
    rw [turned] at same
    cases same
    exact absurd rfl stopped
  · rename_i same
    rw [turned] at same
    cases same
    rfl

theorem heard_served {chance : Nat → Supply} {k : Nat} {held rest : Holdings} {d : Connection}
    (turned : c.turn host (chance k) held = (.served, d, rest)) :
    c.heard host chance k held = c.hears host ++ d.heard host chance (k + 1) rest := by
  rw [heard]
  split
  · rename_i same
    rw [turned] at same
    cases same
    rfl
  · rename_i other
    exact absurd turned (other d rest)

theorem hears_subset_heard (chance : Nat → Supply) (k : Nat) (held : Holdings) (c : Connection) :
    c.hears host ⊆ c.heard host chance k held := by
  rw [heard]
  split
  · exact List.subset_append_left ..
  · exact List.Subset.refl _

/-- A stranger is served without a look at the vault and the disk, and without a trace in them. -/
theorem serve_stranger {chance : Nat → Supply} {k : Nat} {held : Holdings} (outside : c.Outside)
    (refused : ∀ p ∈ c.heard host chance k held, ¬host.gateway.Admits p.1 p.2) :
    ∃ d n, Outside d ∧ ∀ chance held k, c.serve host chance k held = ⟨d, held, k + n⟩ := by
  -- each turn that serves leaves less in the inlet, and what it hears is part of what is heard in all
  induction weighed : c.stream.inlet.weight using Nat.strongRecOn generalizing c k held with
  | ind weight ih =>
    obtain ⟨t, d, after, turned⟩ :=
      turn_stranger outside fun p member => refused p (hears_subset_heard chance k held c member)
    cases t with
    | served =>
      have lighter := weight_turn (turned (chance k) held)
      have later : ∀ p ∈ d.heard host chance (k + 1) held, ¬host.gateway.Admits p.1 p.2 := by
        intro p member
        refine refused p ?_
        rw [heard_served (turned (chance k) held)]
        exact List.mem_append_right _ member
      obtain ⟨e, n, last, served⟩ := ih _ (weighed ▸ lighter) after later rfl
      refine ⟨e, n + 1, last, fun chance held k => ?_⟩
      rw [serve_served (turned (chance k) held), served, Nat.add_assoc, Nat.add_comm 1]
    | waiting => exact ⟨d, 0, after, fun chance held k => serve_stopped (turned (chance k) held) nofun⟩
    | ended => exact ⟨d, 0, after, fun chance held k => serve_stopped (turned (chance k) held) nofun⟩

theorem weight_receive_le (host : Host) (c : Connection) :
    (c.stream.receive RequestFrame.codec host.wording).2.inlet.weight ≤ c.stream.inlet.weight := by
  have fair := Inlet.receive_fair c.stream.limit c.stream.inlet
  change (c.stream.inlet.receive c.stream.limit).2.weight ≤ _
  cases received : (c.stream.inlet.receive c.stream.limit).1 with
  | message b =>
    rw [received] at fair
    exact Nat.le_of_lt fair
  | failed e =>
    rw [received] at fair
    exact fair.1
  | finished | pending =>
    rw [received] at fair
    exact fair

theorem turn_quiet (quiet : c.Quiet) :
    ∃ t d, Quiet d ∧ t ≠ .served ∧ ∀ supply held, c.turn host supply held = (t, d, held) := by
  obtain ⟨outside, empty⟩ := quiet
  by_cases closed : c.session.state = .closed
  · exact ⟨.ended, c, ⟨outside, empty⟩, nofun, fun supply held => if_pos closed⟩
  · have le := weight_receive_le host c
    have frame {r : Receipt RequestFrame} {stream : Stream}
        (received : c.stream.receive RequestFrame.codec host.wording = (r, stream)) :
        ¬((∃ f, r = .message f) ∨ ∃ why, r = .failed (.protocol why)) := fun one => by
      have less := Stream.receive_weight received one
      omega
    generalize received : c.stream.receive RequestFrame.codec host.wording = q at le
    obtain ⟨r, stream⟩ := q
    have none : stream.inlet.weight = 0 := Nat.le_zero.mp (empty ▸ le)
    have other := frame received
    cases r with
    | pending =>
      exact ⟨.waiting, { c with stream }, ⟨outside, none⟩, nofun, fun supply held => by
        simp only [turn, closed, received, if_false]⟩
    | finished =>
      exact ⟨.ended, { c with stream }.shut, ⟨outside_shut _, none⟩, nofun, fun supply held => by
        simp only [turn, closed, received, if_false]⟩
    | failed e =>
      refine ⟨.ended, { c with stream }.shut, ⟨outside_shut _, none⟩, nofun, fun supply held => ?_⟩
      simp only [turn, closed, received, if_false]
      split
      · exact absurd (.inr ⟨_, rfl⟩) other
      · rfl
    | message f => exact absurd (.inl ⟨f, rfl⟩) other

theorem serve_quiet (quiet : c.Quiet) :
    ∃ d, Quiet d ∧ ∀ chance held k, c.serve host chance k held = ⟨d, held, k⟩ := by
  obtain ⟨t, d, still, stopped, turned⟩ := turn_quiet quiet
  exact ⟨d, still, fun chance held k => serve_stopped (turned (chance k) held) stopped⟩

end Connection

end Custody
