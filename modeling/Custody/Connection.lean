import Custody.Gateway
import Custody.Service
import Custody.Wire.Stream

/-!
One client's connection, as the server sees it. Requests are answered one after another; what is no
request is answered too. Before the session is authenticated frames are kept short, and a failed
attempt to authenticate ends the connection.
-/

namespace Custody

structure Host where
  gateway : Gateway
  service : Service
  limit : Nat
  /-- How clients are told what is wrong with a body that is no request. -/
  wording : Json.Wording

/-- The limit on frames for strangers. -/
def Host.strangerLimit (h : Host) : Nat := min h.limit 65536

structure Connection where
  stream : Stream
  session : Session

inductive Turn where
  /-- Something was answered, and there may be more. -/
  | served
  /-- Nothing can be done before more arrives. -/
  | waiting
  /-- The connection is over. -/
  | ended
deriving DecidableEq, Repr

namespace Connection

def accept (host : Host) (session : Session) : Connection := ⟨.fresh host.strangerLimit, session⟩

def shut (c : Connection) : Connection := ⟨c.stream.close.2, c.session.close⟩

def respond (host : Host) (supply : Supply) (held : Holdings) (c : Connection) :
    Request → Response × Connection × Holdings
  | .auth password =>
    match c.session.authenticate host.gateway (Bytes.ofText password) with
    | (.ok (), session) =>
      (.authenticated session.handle, ⟨{ c.stream with limit := host.limit }, session⟩, held)
    | (.error e, session) => (.ofFailure e, { c with session }, held)
  | request =>
    match c.session.authorize with
    | .error e => (.ofFailure e, c, held)
    | .ok () => let (r, held) := host.service.handle supply held request; (r, c, held)

def reply (c : Connection) (f : ResponseFrame) : Turn × Connection :=
  match c.stream.send ResponseFrame.codec f with
  | (.ok (), stream) => (.served, { c with stream })
  | (.error _, stream) => (.ended, { c with stream }.shut)

def answer (host : Host) (supply : Supply) (held : Holdings) (c : Connection) (f : RequestFrame) :
    Turn × Connection × Holdings :=
  let (response, c, held) := c.respond host supply held f.request
  match c.reply ⟨f.id, response⟩ with
  | (.served, c) =>
    if c.session.state = .closed then (.ended, c.shut, held) else (.served, c, held)
  | (turn, c) => (turn, c, held)

/-- Answers the next frame. A body that is no request is answered under the number 0. -/
def turn (host : Host) (supply : Supply) (held : Holdings) (c : Connection) :
    Turn × Connection × Holdings :=
  if c.session.state = .closed then (.ended, c, held)
  else
    match c.stream.receive RequestFrame.codec host.wording with
    | (.pending, stream) => (.waiting, { c with stream }, held)
    | (.finished, stream) => (.ended, { c with stream }.shut, held)
    | (.failed e, stream) =>
      match e with
      | .protocol _ =>
        let (turn, c) := { c with stream }.reply ⟨0, .ofFailure e⟩
        (turn, c, held)
      | _ => (.ended, { c with stream }.shut, held)
    | (.message f, stream) => { c with stream }.answer host supply held f

theorem inlet_reply (c : Connection) (f : ResponseFrame) :
    (c.reply f).2.stream.inlet = c.stream.inlet := by
  unfold reply
  split
  · rename_i sent; exact congrArg (·.2.inlet) sent.symm
  · rename_i sent; exact congrArg (·.2.inlet) sent.symm

theorem inlet_respond (host : Host) (supply : Supply) (held : Holdings) (c : Connection)
    (r : Request) : (c.respond host supply held r).2.1.stream.inlet = c.stream.inlet := by
  unfold respond
  split
  · split <;> rfl
  · split <;> rfl

theorem inlet_answer (host : Host) (supply : Supply) (held : Holdings) (c : Connection)
    (f : RequestFrame) : (c.answer host supply held f).2.1.stream.inlet = c.stream.inlet := by
  rw [← inlet_respond host supply held c f.request]
  unfold answer
  generalize c.respond host supply held f.request = r
  obtain ⟨response, d, h⟩ := r
  have sent := inlet_reply d ⟨f.id, response⟩
  simp only
  generalize d.reply ⟨f.id, response⟩ = q at sent
  obtain ⟨turn, e⟩ := q
  cases turn <;> simp only
  · split <;> exact sent
  · exact sent
  · exact sent

/-- A turn that served something leaves less to serve. -/
theorem weight_turn {host : Host} {supply : Supply} {held rest : Holdings} {c d : Connection}
    (h : c.turn host supply held = (.served, d, rest)) :
    d.stream.inlet.weight < c.stream.inlet.weight := by
  unfold turn at h
  split at h
  · cases h
  · split at h
    · cases h
    · cases h
    · rename_i e stream received
      split at h
      · rename_i why
        have same := inlet_reply { c with stream } ⟨0, .ofFailure (.protocol why)⟩
        have sent := congrArg (·.2.1) h
        simp only at sent
        rw [← sent, same]
        exact Stream.receive_weight received (.inr ⟨why, rfl⟩)
      · cases h
    · rename_i f stream received
      have same := inlet_answer host supply held { c with stream } f
      rw [h] at same
      rw [same]
      exact Stream.receive_weight received (.inl ⟨f, rfl⟩)

structure Progress where
  connection : Connection
  held : Holdings
  served : Nat

/-- Takes turns as long as there is something to serve. -/
def serve (host : Host) (chance : Nat → Supply) (served : Nat) (held : Holdings) (c : Connection) :
    Progress :=
  match h : c.turn host (chance served) held with
  | (.served, d, rest) => d.serve host chance (served + 1) rest
  | (_, d, rest) => ⟨d, rest, served⟩
termination_by c.stream.inlet.weight
decreasing_by exact weight_turn h

end Connection

end Custody
