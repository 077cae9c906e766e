import Custody.Proofs.Connection
import Custody.Proofs.Wire.Stream

/-!
What one turn of a connection does with the frame that stands in front. The session hears a body and says
something to it; the reply is sent under the limit that is in force after it.
-/

namespace Custody

def Host.limitIn (host : Host) (s : Session) : Nat :=
  if s.isAuthenticated then host.limit else host.strangerLimit

/-- The number under which a body is answered: its own, or 0 if it is no request. -/
def RequestFrame.numberIn (body : Bytes) : UInt64 :=
  match codec.decode body with
  | .ok f => f.id
  | .error _ => 0

/-- What a session says to one body, and what that leaves of the session and the holdings. -/
def Session.hear (host : Host) (supply : Supply) (held : Holdings) (s : Session) (body : Bytes) :
    ResponseFrame × Session × Holdings :=
  match RequestFrame.codec.decode body with
  | .error fault => (⟨0, .ofFailure (.protocol ("malformed message: " ++ host.wording body fault))⟩, s, held)
  | .ok ⟨id, .auth password⟩ =>
    match s.state with
    | .unauthenticated =>
      if host.gateway.verify (Bytes.ofText password) then
        (⟨id, .authenticated s.handle⟩, { s with state := .authenticated }, held)
      else (⟨id, .ofFailure .authentication⟩, s.close, held)
    | .authenticated => (⟨id, .ofFailure (.invalidInput "Session is already authenticated")⟩, s, held)
    | .closed => (⟨id, .ofFailure .authentication⟩, s, held)
  | .ok ⟨id, request⟩ =>
    if s.isAuthenticated then
      let (response, held) := host.service.handle supply held request
      (⟨id, response⟩, s, held)
    else (⟨id, .ofFailure .unauthorized⟩, s, held)

namespace Session

variable {host : Host} {supply : Supply} {held kept : Holdings} {s t : Session} {body : Bytes}
  {reply : ResponseFrame}

theorem hear_password (supply : Supply) (held : Holdings) {id : UInt64} {password : String}
    (unopened : s.state = .unauthenticated)
    (right : host.gateway.verify (Bytes.ofText password) = true)
    (read : RequestFrame.codec.decode body = .ok ⟨id, .auth password⟩) :
    s.hear host supply held body = (⟨id, .authenticated s.handle⟩, { s with state := .authenticated }, held) := by
  simp only [hear, read, unopened, right, if_true]

theorem hear_request (host : Host) (supply : Supply) (held : Holdings) {id : UInt64} {r : Request}
    (opened : s.state = .authenticated)
    (read : RequestFrame.codec.decode body = .ok ⟨id, r⟩) (other : ∀ password, r ≠ .auth password) :
    s.hear host supply held body =
      (⟨id, (host.service.handle supply held r).1⟩, s, (host.service.handle supply held r).2) := by
  have inside : s.isAuthenticated = true := by simp [isAuthenticated, opened]
  cases r with
  | auth password => exact absurd rfl (other password)
  | put | get | delete | list | contains | count | clear | save | ping => simp only [hear, read, inside, if_true]

theorem id_hear (heard : s.hear host supply held body = (reply, t, kept)) :
    reply.id = RequestFrame.numberIn body := by
  unfold hear at heard
  unfold RequestFrame.numberIn
  split at heard
  · rename_i fault read
    cases heard
    rw [read]
  · rename_i id password read
    rw [read]
    split at heard
    · split at heard <;> (cases heard; rfl)
    · cases heard
      rfl
    · cases heard
      rfl
  · rename_i id request other read
    rw [read]
    split at heard <;> (cases heard; rfl)

theorem hear_authenticated (opened : s.state = .authenticated)
    (heard : s.hear host supply held body = (reply, t, kept)) : t = s := by
  have inside : s.isAuthenticated = true := by simp [isAuthenticated, opened]
  unfold hear at heard
  rw [opened] at heard
  simp only [inside, if_true] at heard
  split at heard <;> (cases heard; rfl)

theorem limit_hear (heard : s.hear host supply held body = (reply, t, kept)) :
    host.limitIn s ≤ host.limitIn t := by
  by_cases opened : s.state = .authenticated
  · exact Nat.le_of_eq (hear_authenticated opened heard ▸ rfl)
  · have least : host.strangerLimit ≤ host.limitIn t := by
      unfold Host.limitIn
      split
      · exact Nat.min_le_left _ _
      · exact Nat.le_refl _
    simpa [Host.limitIn, isAuthenticated, opened] using least

theorem hear_closed (opened : s.state ≠ .closed) (closed : t.state = .closed)
    (heard : s.hear host supply held body = (reply, t, kept)) :
    s.state = .unauthenticated ∧ kept = held ∧ ∃ id password,
      RequestFrame.codec.decode body = .ok ⟨id, .auth password⟩ ∧
      host.gateway.verify (Bytes.ofText password) = false ∧ reply = ⟨id, .ofFailure .authentication⟩ := by
  unfold hear at heard
  split at heard
  · cases heard
    exact absurd closed opened
  · rename_i id password read
    split at heard
    · rename_i unopened
      split at heard
      · cases heard
        cases closed
      · rename_i wrong
        cases heard
        exact ⟨unopened, rfl, id, password, read, by simpa using wrong, rfl⟩
    · cases heard
      exact absurd closed opened
    · cases heard
      exact absurd closed opened
  · split at heard
    · cases heard
      exact absurd closed opened
    · cases heard
      exact absurd closed opened

end Session

namespace Connection

def settle (d : Connection) (f : ResponseFrame) (held : Holdings) : Turn × Connection × Holdings :=
  match d.reply f with
  | (.served, d) => if d.session.state = .closed then (.ended, d.shut, held) else (.served, d, held)
  | (turn, d) => (turn, d, held)

structure Live (host : Host) (c : Connection) : Prop where
  opened : c.session.state ≠ .closed
  limit : c.stream.limit = host.limitIn c.session
  inlet : c.stream.inlet.Sound c.stream.limit

def turnedTo (host : Host) (c : Connection) (j : Inlet) (s : Session) : Connection :=
  ⟨{ c.stream with inlet := j, limit := host.limitIn s }, s⟩

def replied (d : Connection) (f : ResponseFrame) : Connection :=
  let sent := d.stream.outlet.sent ++ Frame.encode (ResponseFrame.codec.encode f)
  { d with stream := { d.stream with outlet := { d.stream.outlet with sent } } }

variable {host : Host} {supply : Supply} {held kept : Holdings} {c d : Connection} {s : Session}
  {body rest : Bytes} {reply f : ResponseFrame}

theorem answer_eq {q : RequestFrame} {r : Response}
    (responded : c.respond host supply held q.request = (r, d, kept)) :
    c.answer host supply held q = d.settle ⟨q.id, r⟩ kept := by
  rw [answer, responded]
  rfl

theorem settle_open (opened : d.session.state ≠ .closed) :
    d.settle f held = ((d.reply f).1, (d.reply f).2, held) := by
  have kept : (d.reply f).1 = .served → (d.reply f).2.session = d.session := by
    unfold reply
    split
    · exact fun _ => rfl
    · exact nofun
  unfold settle
  generalize d.reply f = q at kept
  obtain ⟨t, e⟩ := q
  cases t with
  | served =>
    have open_ : e.session.state ≠ .closed := kept rfl ▸ opened
    exact if_neg open_
  | waiting | ended => rfl

theorem respond_hear {q : RequestFrame} (opened : c.session.state ≠ .closed)
    (limit : c.stream.limit = host.limitIn c.session) (read : RequestFrame.codec.decode body = .ok q)
    (heard : c.session.hear host supply held body = (reply, s, kept)) :
    reply.id = q.id ∧ c.respond host supply held q.request =
      (reply.response, c.turnedTo host c.stream.inlet s, kept) := by
  have unchanged : c.turnedTo host c.stream.inlet c.session = c := by rw [turnedTo, ← limit]
  obtain ⟨id, request⟩ := q
  unfold Session.hear at heard
  rw [read] at heard
  -- only the right password changes the session, and with it the limit
  cases request with
  | auth password =>
    cases state : c.session.state with
    | unauthenticated =>
      have stranger : host.limitIn c.session.close = host.limitIn c.session := by
        simp [Host.limitIn, Session.isAuthenticated, Session.close, state]
      simp only [state] at heard
      by_cases right : host.gateway.verify (Bytes.ofText password) = true
      · rw [if_pos right] at heard
        cases heard
        have inside : host.limitIn { c.session with state := .authenticated } = host.limit := by
          simp [Host.limitIn, Session.isAuthenticated]
        rw [turnedTo, inside]
        exact ⟨rfl, by simp only [respond, Session.authenticate, state, right, if_true]⟩
      · rw [if_neg right] at heard
        cases heard
        rw [turnedTo, stranger, ← limit]
        exact ⟨rfl, by simp only [respond, Session.authenticate, state, right, Session.close,
          Bool.false_eq_true, if_false]⟩
    | authenticated =>
      simp only [state] at heard
      cases heard
      rw [unchanged]
      exact ⟨rfl, by simp only [respond, Session.authenticate, state]⟩
    | closed => exact absurd state opened
  | put | get | delete | list | contains | count | clear | save | ping =>
    by_cases inside : c.session.isAuthenticated = true
    · simp only [inside, if_true] at heard
      cases heard
      rw [unchanged]
      exact ⟨rfl, by simp only [respond, Session.authorize, inside, if_true]⟩
    · simp only [inside, if_false, Bool.false_eq_true] at heard
      cases heard
      rw [unchanged]
      exact ⟨rfl, by simp only [respond, Session.authorize, inside, if_false, Bool.false_eq_true]⟩

theorem turn_frame (live : c.Live host)
    (front : Frame.front (host.limitIn c.session) c.stream.inlet.ahead = .frame body rest)
    (heard : c.session.hear host supply held body = (reply, s, kept)) :
    ∃ j, j.Sound (host.limitIn c.session) ∧ j.ahead = rest ∧ j.closed = c.stream.inlet.closed ∧
      c.turn host supply held = (c.turnedTo host j s).settle reply kept := by
  obtain ⟨opened, limit, sound⟩ := live
  rw [← limit] at front
  obtain ⟨j, receipt, left, ahead, closed⟩ := Inlet.receive_frame sound front
  refine ⟨j, limit ▸ left, ahead, closed, ?_⟩
  let d : Connection := { c with stream := { c.stream with inlet := j } }
  cases read : RequestFrame.codec.decode body with
  | ok q =>
    have received : c.stream.receive RequestFrame.codec host.wording = (.message q, d.stream) := by
      simp only [Stream.receive, receipt, read, d]
    have taken : c.turn host supply held = d.answer host supply held q := by
      simp only [turn, opened, if_false, received, d]
    obtain ⟨same, responded⟩ := respond_hear (c := d) opened limit read heard
    rw [taken, answer_eq responded, ← same]
    rfl
  | error fault =>
    let f : ResponseFrame := ⟨0, .ofFailure (.protocol ("malformed message: " ++ host.wording body fault))⟩
    have received : c.stream.receive RequestFrame.codec host.wording =
        (.failed (.protocol ("malformed message: " ++ host.wording body fault)), d.stream) := by
      simp only [Stream.receive, receipt, read, d]
    have taken : c.turn host supply held = ((d.reply f).1, (d.reply f).2, held) := by
      simp only [turn, opened, if_false, received, d, f]
    simp only [Session.hear, read] at heard
    cases heard
    have unchanged : c.turnedTo host j c.session = d := by rw [turnedTo, ← limit]
    rw [taken, unchanged]
    exact (settle_open (d := d) opened).symm

structure Over (c d : Connection) : Prop where
  closed : d.session.state = .closed
  sent : d.stream.outlet.sent = c.stream.outlet.sent

theorem over_shut (unsent : c.stream.outlet.unsent = []) : c.Over c.shut := by
  refine ⟨rfl, ?_⟩
  simp [shut, Stream.close, Outlet.close, Outlet.flush, unsent]

theorem turn_tooBig (live : c.Live host) (unsent : c.stream.outlet.unsent = [])
    (front : Frame.front (host.limitIn c.session) c.stream.inlet.ahead = .tooBig) (supply : Supply)
    (held : Holdings) :
    ∃ d, c.turn host supply held = (.ended, d, held) ∧ c.Over d := by
  obtain ⟨opened, limit, sound⟩ := live
  rw [← limit] at front
  obtain ⟨j, receipt⟩ := Inlet.receive_tooBig sound front
  let d : Connection := { c with stream := { c.stream with inlet := j } }
  have ending : d.Over d.shut := over_shut unsent
  refine ⟨d.shut, ?_, ending.closed, ending.sent⟩
  simp only [turn, opened, if_false, Stream.receive, receipt, d]

theorem turn_short (live : c.Live host) (unsent : c.stream.outlet.unsent = [])
    (front : Frame.front (host.limitIn c.session) c.stream.inlet.ahead = .short) (supply : Supply)
    (held : Holdings) :
    if c.stream.inlet.closed then ∃ d, c.turn host supply held = (.ended, d, held) ∧ c.Over d
    else ∃ j, j.Sound (host.limitIn c.session) ∧ j.ahead = c.stream.inlet.ahead ∧ j.closed = false ∧
      c.turn host supply held = (.waiting, { c with stream := { c.stream with inlet := j } }, held) := by
  obtain ⟨opened, limit, sound⟩ := live
  rw [← limit] at front
  have received := Inlet.receive_short sound front
  split at received
  · rename_i closed
    rw [if_pos closed]
    obtain ⟨j, receipt⟩ := received
    let d : Connection := { c with stream := { c.stream with inlet := j } }
    have ending : d.Over d.shut := over_shut unsent
    refine ⟨d.shut, ?_, ending.closed, ending.sent⟩
    rcases receipt with finished | cutOff
    · simp only [turn, opened, if_false, Stream.receive, finished, d]
    · simp only [turn, opened, if_false, Stream.receive, cutOff, d]
  · rename_i open_
    rw [if_neg open_]
    obtain ⟨j, receipt, left, same, closed⟩ := received
    refine ⟨j, limit ▸ left, same, closed, ?_⟩
    simp only [turn, opened, if_false, Stream.receive, receipt]

theorem reply_fits (clear : d.stream.outlet.Clear)
    (fits : (ResponseFrame.codec.encode f).length ≤ d.stream.limit) : d.reply f = (.served, d.replied f) := by
  simp only [reply, Stream.send, Outlet.send_fits clear fits, replied]

theorem settle_unsent (unsent : d.stream.outlet.unsent = [])
    (barred : d.stream.limit < (ResponseFrame.codec.encode f).length ∨ d.stream.outlet.broken = true) :
    ∃ e, d.settle f held = (.ended, e, held) ∧ d.Over e := by
  obtain ⟨trouble, o, refused, sent⟩ := Outlet.send_barred unsent barred
  let e : Connection := { d with stream := { d.stream with outlet := o } }
  have replied : d.reply f = (.ended, e.shut) := by simp only [reply, Stream.send, refused, e]
  refine ⟨e.shut, ?_, rfl, sent⟩
  simp only [settle, replied]

/-- A connection that goes on after a reply, with the session and the bytes that are left. -/
structure Continues (host : Host) (c : Connection) (f : ResponseFrame) (s : Session) (rest : Bytes)
    (e : Connection) : Prop where
  live : e.Live host
  clear : e.stream.outlet.Clear
  session : e.session = s
  ahead : e.stream.inlet.ahead = rest
  inlet : e.stream.inlet.closed = c.stream.inlet.closed
  sent : e.stream.outlet.sent = c.stream.outlet.sent ++ Frame.encode (ResponseFrame.codec.encode f)

section Answer

variable (live : c.Live host) (front : Frame.front (host.limitIn c.session) c.stream.inlet.ahead = .frame body rest)
  (heard : c.session.hear host supply held body = (reply, s, kept))

include live front heard

theorem turn_unsent (unsent : c.stream.outlet.unsent = [])
    (barred : host.limitIn s < (ResponseFrame.codec.encode reply).length ∨ c.stream.outlet.broken = true) :
    ∃ e, c.turn host supply held = (.ended, e, kept) ∧ c.Over e := by
  obtain ⟨j, -, -, -, turned⟩ := turn_frame live front heard
  obtain ⟨e, settled, ending⟩ : ∃ e, (c.turnedTo host j s).settle reply kept = (.ended, e, kept) ∧
      (c.turnedTo host j s).Over e := settle_unsent unsent barred
  exact ⟨e, turned.trans settled, ending.closed, ending.sent⟩

theorem turn_served (clear : c.stream.outlet.Clear) (opened : s.state ≠ .closed)
    (fits : (ResponseFrame.codec.encode reply).length ≤ host.limitIn s) :
    ∃ e, c.turn host supply held = (.served, e, kept) ∧ c.Continues host reply s rest e := by
  obtain ⟨j, sound, ahead, same, turned⟩ := turn_frame live front heard
  have sent : (c.turnedTo host j s).reply reply = (.served, (c.turnedTo host j s).replied reply) :=
    reply_fits clear fits
  refine ⟨(c.turnedTo host j s).replied reply, ?_, ⟨⟨opened, rfl, ?_⟩, ?_, rfl, ahead, same, rfl⟩⟩
  · rw [turned, settle_open opened, sent]
  · exact sound.mono (Session.limit_hear heard)
  · exact clear.sent _

theorem turn_closed (clear : c.stream.outlet.Clear) (closed : s.state = .closed)
    (fits : (ResponseFrame.codec.encode reply).length ≤ host.limitIn s) :
    ∃ e, c.turn host supply held = (.ended, e, kept) ∧ e.session.state = .closed ∧
      e.stream.outlet.sent = c.stream.outlet.sent ++ Frame.encode (ResponseFrame.codec.encode reply) := by
  obtain ⟨j, -, -, -, turned⟩ := turn_frame live front heard
  let d := (c.turnedTo host j s).replied reply
  have sent : (c.turnedTo host j s).reply reply = (.served, d) := reply_fits clear fits
  have ending : d.Over d.shut := over_shut clear.unsent
  refine ⟨d.shut, ?_, ending.closed, ending.sent⟩
  rw [turned, settle, sent]
  exact if_pos closed

end Answer

theorem session_reply (d : Connection) (f : ResponseFrame) :
    (d.reply f).2.session = d.session ∨ (d.reply f).2.session.state = .closed := by
  unfold reply
  split
  · exact .inl rfl
  · exact .inr rfl

theorem session_answer {q : RequestFrame} (opened : c.session.state = .authenticated) :
    (c.answer host supply held q).2.1.session = c.session ∨
      (c.answer host supply held q).2.1.session.state = .closed := by
  have kept : (c.respond host supply held q.request).2.1.session = c.session := by
    unfold respond
    split
    · simp only [Session.authenticate, opened]
    · split <;> rfl
  generalize responded : c.respond host supply held q.request = r at kept
  obtain ⟨response, d, rest⟩ := r
  rw [answer_eq responded, settle_open (by rw [kept, opened]; decide), ← kept]
  exact session_reply d ⟨q.id, response⟩

theorem session_turn (host : Host) (supply : Supply) (held : Holdings) (opened : c.session.state = .authenticated) :
    (c.turn host supply held).2.1.session = c.session ∨ (c.turn host supply held).2.1.session.state = .closed := by
  unfold turn
  split
  · exact .inl rfl
  · split
    · exact .inl rfl
    · exact .inr rfl
    · split
      · exact session_reply _ _
      · exact .inr rfl
    · exact session_answer opened

theorem session_serve {chance : Nat → Supply} (opened : c.session.state = .authenticated) (k : Nat)
    (held : Holdings) : (c.serve host chance k held).connection.session = c.session ∨
      (c.serve host chance k held).connection.session.state = .closed := by
  induction weighed : c.stream.inlet.weight using Nat.strongRecOn generalizing c k held with
  | ind weight ih =>
    have stays := session_turn host (chance k) held opened
    generalize turned : c.turn host (chance k) held = q at stays
    obtain ⟨t, d, rest⟩ := q
    cases t with
    | waiting | ended =>
      rw [serve_stopped turned (by decide)]
      exact stays
    | served =>
      rw [serve_served turned]
      rcases stays with same | closed
      · have lighter := weight_turn turned
        rw [← same]
        exact ih _ (weighed ▸ lighter) (same ▸ opened) _ _ rfl
      · rw [serve_stopped (if_pos closed) (by decide)]
        exact .inr closed

end Connection

end Custody
