import Custody.Proofs.Connection.Dialogue

/-!
Two connections in step. Where two connections stand at the same point, the same session in front of the same
bytes, every turn has the same outcome in both, and so has all that comes after, however it arrives and ends.
-/

namespace Custody

inductive Outlet.Alike (o p : Outlet) : Prop where
  | clear (left : o.Clear) (right : p.Clear)
  | broken (left : o.unsent = [] ∧ o.broken = true) (right : p.unsent = [] ∧ p.broken = true)

namespace Outlet.Alike

variable {o p : Outlet}

theorem unsent (alike : o.Alike p) : o.unsent = [] ∧ p.unsent = [] := by
  cases alike with
  | clear left right => exact ⟨left.unsent, right.unsent⟩
  | broken left right => exact ⟨left.1, right.1⟩

theorem hangUp (alike : o.Alike p) : Alike { o with broken := true } { p with broken := true } :=
  .broken ⟨alike.unsent.1, rfl⟩ ⟨alike.unsent.2, rfl⟩

end Outlet.Alike

namespace Connection

structure Abreast (host : Host) (c d : Connection) : Prop where
  left : c.Live host
  right : d.Live host
  session : d.session = c.session
  ahead : d.stream.inlet.ahead = c.stream.inlet.ahead
  closed : d.stream.inlet.closed = c.stream.inlet.closed
  outlets : c.stream.outlet.Alike d.stream.outlet

/-- Two connections that do the same, whatever comes: they stand at the same point, or both are over. -/
inductive Level (host : Host) (c d : Connection) : Prop where
  | abreast (abreast : c.Abreast host d)
  | ended (left : c.session.state = .closed) (right : d.session.state = .closed)

structure TurnsAlike (host : Host) (c d : Connection) (x y : Turn × Connection × Holdings) : Prop where
  turn : y.1 = x.1
  held : y.2.2 = x.2.2
  level : x.2.1.Level host y.2.1
  said : ∃ said, x.2.1.stream.outlet.sent = c.stream.outlet.sent ++ said ∧
    y.2.1.stream.outlet.sent = d.stream.outlet.sent ++ said

variable {host : Host} {chance : Nat → Supply} {supply : Supply} {c d e e' : Connection} {k : Nat}
  {held kept : Holdings} {t : Turn} {before before' : Bytes}

theorem Live.feed (live : c.Live host) (b : Bytes) : Live host { c with stream := c.stream.feed b } :=
  ⟨live.opened, live.limit, live.inlet.feed b⟩

theorem Live.finish (live : c.Live host) : Live host { c with stream := c.stream.finish } :=
  ⟨live.opened, live.limit, live.inlet.finish⟩

theorem Live.hangUp (live : c.Live host) : Live host { c with stream := c.stream.hangUp } :=
  ⟨live.opened, live.limit, live.inlet.finish⟩

theorem TurnsAlike.silent (level : e.Level host e') (sent : e.stream.outlet.sent = c.stream.outlet.sent)
    (sent' : e'.stream.outlet.sent = d.stream.outlet.sent) : TurnsAlike host c d (t, e, held) (t, e', held) :=
  ⟨rfl, rfl, level, [], by rw [sent, List.append_nil], by rw [sent', List.append_nil]⟩

theorem TurnsAlike.of_over (turned : c.turn host supply held = (t, e, kept))
    (turned' : d.turn host supply held = (t, e', kept)) (ending : c.Over e) (ending' : d.Over e') :
    TurnsAlike host c d (c.turn host supply held) (d.turn host supply held) := by
  rw [turned, turned']
  exact .silent (.ended ending.closed ending'.closed) ending.sent ending'.sent

namespace Abreast

theorem front (abreast : c.Abreast host d) :
    Frame.front (host.limitIn d.session) d.stream.inlet.ahead =
      Frame.front (host.limitIn c.session) c.stream.inlet.ahead := by
  rw [abreast.session, abreast.ahead]

theorem turn_frame {body rest : Bytes} (abreast : c.Abreast host d)
    (front : Frame.front (host.limitIn c.session) c.stream.inlet.ahead = .frame body rest) (supply : Supply)
    (held : Holdings) : TurnsAlike host c d (c.turn host supply held) (d.turn host supply held) := by
  obtain ⟨⟨reply, s, kept⟩, heard⟩ : ∃ h, c.session.hear host supply held body = h := ⟨_, rfl⟩
  have front' := abreast.front.trans front
  have heard' : d.session.hear host supply held body = (reply, s, kept) := abreast.session ▸ heard
  obtain ⟨left, right, session, ahead, closed, outlets⟩ := abreast
  cases outlets with
  | broken lost lost' =>
    obtain ⟨e, turned, ending⟩ := turn_unsent left front heard lost.1 (.inr lost.2)
    obtain ⟨e', turned', ending'⟩ := turn_unsent right front' heard' lost'.1 (.inr lost'.2)
    exact .of_over turned turned' ending ending'
  | clear clear clear' =>
    by_cases fits : (ResponseFrame.codec.encode reply).length ≤ host.limitIn s
    · by_cases shut : s.state = .closed
      · obtain ⟨e, turned, done, sent⟩ := turn_closed left front heard clear shut fits
        obtain ⟨e', turned', done', sent'⟩ := turn_closed right front' heard' clear' shut fits
        rw [turned, turned']
        exact ⟨rfl, rfl, .ended done done', _, sent, sent'⟩
      · obtain ⟨e, turned, next⟩ := turn_served left front heard clear shut fits
        obtain ⟨e', turned', next'⟩ := turn_served right front' heard' clear' shut fits
        have onward : e.Abreast host e' := {
          left := next.live
          right := next'.live
          session := next'.session.trans next.session.symm
          ahead := next'.ahead.trans next.ahead.symm
          closed := next'.inlet.trans (closed.trans next.inlet.symm)
          outlets := .clear next.clear next'.clear }
        rw [turned, turned']
        exact ⟨rfl, rfl, .abreast onward, _, next.sent, next'.sent⟩
    · have long := Nat.not_le.mp fits
      obtain ⟨e, turned, ending⟩ := turn_unsent left front heard clear.unsent (.inl long)
      obtain ⟨e', turned', ending'⟩ := turn_unsent right front' heard' clear'.unsent (.inl long)
      exact .of_over turned turned' ending ending'

theorem turn_short (abreast : c.Abreast host d)
    (front : Frame.front (host.limitIn c.session) c.stream.inlet.ahead = .short) (supply : Supply)
    (held : Holdings) : TurnsAlike host c d (c.turn host supply held) (d.turn host supply held) := by
  have short' := Connection.turn_short abreast.right abreast.outlets.unsent.2 (abreast.front.trans front) supply held
  obtain ⟨left, right, session, ahead, closed, outlets⟩ := abreast
  have short := Connection.turn_short left outlets.unsent.1 front supply held
  rw [closed] at short'
  split at short
  · rename_i finished
    rw [if_pos finished] at short'
    obtain ⟨e, turned, ending⟩ := short
    obtain ⟨e', turned', ending'⟩ := short'
    exact .of_over turned turned' ending ending'
  · rename_i unfinished
    rw [if_neg unfinished] at short'
    obtain ⟨j, sound, same, open_, turned⟩ := short
    obtain ⟨j', sound', same', open', turned'⟩ := short'
    rw [turned, turned']
    refine .silent (.abreast ?_) rfl rfl
    exact {
      left := ⟨left.opened, left.limit, left.limit ▸ sound⟩
      right := ⟨right.opened, right.limit, right.limit ▸ sound'⟩
      session := session
      ahead := same'.trans (ahead.trans same.symm)
      closed := open'.trans open_.symm
      outlets := outlets }

end Abreast

namespace Level

theorem turn (level : c.Level host d) (supply : Supply) (held : Holdings) :
    TurnsAlike host c d (c.turn host supply held) (d.turn host supply held) := by
  cases level with
  | ended left right =>
    have turned : c.turn host supply held = (.ended, c, held) := if_pos left
    have turned' : d.turn host supply held = (.ended, d, held) := if_pos right
    exact .of_over turned turned' ⟨left, rfl⟩ ⟨right, rfl⟩
  | abreast abreast =>
    cases front : Frame.front (host.limitIn c.session) c.stream.inlet.ahead with
    | frame body rest => exact abreast.turn_frame front supply held
    | short => exact abreast.turn_short front supply held
    | tooBig =>
      obtain ⟨e, turned, ending⟩ := turn_tooBig abreast.left abreast.outlets.unsent.1 front supply held
      obtain ⟨e', turned', ending'⟩ :=
        turn_tooBig abreast.right abreast.outlets.unsent.2 (abreast.front.trans front) supply held
      exact .of_over turned turned' ending ending'

theorem feed (level : c.Level host d) (b : Bytes) :
    Level host { c with stream := c.stream.feed b } { d with stream := d.stream.feed b } := by
  cases level with
  | ended left right => exact .ended left right
  | abreast abreast =>
    have ahead : (d.stream.inlet.feed b).ahead = (c.stream.inlet.feed b).ahead := by
      rw [Inlet.ahead_feed, Inlet.ahead_feed, abreast.ahead]
    exact .abreast ⟨abreast.left.feed b, abreast.right.feed b, abreast.session, ahead, abreast.closed,
      abreast.outlets⟩

theorem finish (level : c.Level host d) :
    Level host { c with stream := c.stream.finish } { d with stream := d.stream.finish } := by
  cases level with
  | ended left right => exact .ended left right
  | abreast abreast =>
    exact .abreast ⟨abreast.left.finish, abreast.right.finish, abreast.session, abreast.ahead, rfl, abreast.outlets⟩

theorem hangUp (level : c.Level host d) :
    Level host { c with stream := c.stream.hangUp } { d with stream := d.stream.hangUp } := by
  cases level with
  | ended left right => exact .ended left right
  | abreast abreast =>
    exact .abreast ⟨abreast.left.hangUp, abreast.right.hangUp, abreast.session, abreast.ahead, rfl,
      abreast.outlets.hangUp⟩

end Level

inductive Reached (host : Host) : Connection → Prop where
  | accepted (handle : Bytes.Sized 16) (peer : Address) : Reached host (accept host (.start handle peer))
  | fed {c : Connection} (before : c.Reached host) (b : Bytes) : Reached host { c with stream := c.stream.feed b }
  | finished {c : Connection} (before : c.Reached host) : Reached host { c with stream := c.stream.finish }
  | hungUp {c : Connection} (before : c.Reached host) : Reached host { c with stream := c.stream.hangUp }
  | turned {c : Connection} (before : c.Reached host) (supply : Supply) (held : Holdings) :
      Reached host (c.turn host supply held).2.1

namespace Reached

theorem level (reached : c.Reached host) : c.Level host c := by
  induction reached with
  | accepted handle peer =>
    have live := live_accept host handle peer
    exact .abreast ⟨live, live, rfl, rfl, rfl, .clear Outlet.clear_fresh Outlet.clear_fresh⟩
  | fed before b ih => exact ih.feed b
  | finished before ih => exact ih.finish
  | hungUp before ih => exact ih.hangUp
  | turned before supply held ih => exact (ih.turn supply held).level

theorem abreast (reached : c.Reached host) (opened : c.session.state ≠ .closed) : c.Abreast host c := by
  cases reached.level with
  | abreast abreast => exact abreast
  | ended closed => exact absurd closed opened

theorem live (reached : c.Reached host) (opened : c.session.state ≠ .closed) : c.Live host :=
  (reached.abreast opened).left

theorem clear (reached : c.Reached host) (opened : c.session.state ≠ .closed)
    (present : c.stream.outlet.broken = false) : c.stream.outlet.Clear := by
  cases (reached.abreast opened).outlets with
  | clear clear => exact clear
  | broken lost => cases present.symm.trans lost.2

end Reached

namespace Progress

/-- Two connections that take turns in step: they have taken as many, hold the same, and have sent the same since
the first had sent `before` and the second `before'`. -/
structure InStep (host : Host) (before before' : Bytes) (p q : Progress) : Prop where
  level : p.connection.Level host q.connection
  held : q.held = p.held
  served : q.served = p.served
  said : ∃ said, p.connection.stream.outlet.sent = before ++ said ∧
    q.connection.stream.outlet.sent = before' ++ said

namespace InStep

variable {p q : Progress}

theorem serve (level : c.Level host d) (said : ∃ said, c.stream.outlet.sent = before ++ said ∧
      d.stream.outlet.sent = before' ++ said) (k : Nat) (held : Holdings) :
    InStep host before before' (c.serve host chance k held) (d.serve host chance k held) := by
  -- a turn that serves leaves less in the first inlet, and keeps both at the same point
  induction weighed : c.stream.inlet.weight using Nat.strongRecOn generalizing c d k held with
  | ind weight ih =>
    obtain ⟨earlier, sent, sent'⟩ := said
    have alike := level.turn (chance k) held
    generalize turned : c.turn host (chance k) held = x at alike
    generalize turned' : d.turn host (chance k) held = y at alike
    obtain ⟨t, e, kept⟩ := x
    obtain ⟨t', e', kept'⟩ := y
    obtain ⟨turn, same, onward, said, more, more'⟩ := alike
    simp only at turn same onward more more'
    subst turn same
    have all : ∃ said, e.stream.outlet.sent = before ++ said ∧ e'.stream.outlet.sent = before' ++ said :=
      ⟨earlier ++ said, by rw [more, sent, List.append_assoc], by rw [more', sent', List.append_assoc]⟩
    cases t' with
    | served =>
      rw [serve_served turned, serve_served turned']
      exact ih _ (weighed ▸ weight_turn turned) onward all _ _ rfl
    | waiting | ended =>
      rw [serve_stopped turned (by decide), serve_stopped turned' (by decide)]
      exact ⟨onward, rfl, rfl, all⟩

theorem feed (inStep : p.InStep host before before' q) (b : Bytes) :
    (p.reach host chance (·.feed b)).InStep host before before' (q.reach host chance (·.feed b)) := by
  obtain ⟨level, held, served, said⟩ := inStep
  rw [reach, reach, held, served]
  exact serve (level.feed b) said _ _

theorem arrive (inStep : p.InStep host before before' q) (pieces : List Bytes) :
    (p.arrive host chance pieces).InStep host before before' (q.arrive host chance pieces) := by
  induction pieces generalizing p q with
  | nil => exact inStep
  | cons b pieces ih => exact ih (inStep.feed b)

theorem finish (inStep : p.InStep host before before' q) (last : Bytes) (gone : Bool) :
    (p.finish host chance last gone).InStep host before before' (q.finish host chance last gone) := by
  obtain ⟨level, held, served, said⟩ := inStep
  rw [Progress.finish, Progress.finish, reach, reach, held, served]
  cases gone with
  | true => exact serve (level.feed last).hangUp said _ _
  | false => exact serve (level.feed last).finish said _ _

end InStep

end Progress

end Connection

end Custody
