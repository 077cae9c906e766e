import Custody.Client
import Custody.Proofs.Connection
import Custody.Proofs.Connection.Turn
import Custody.Proofs.Wire.Message

/-!
One exchange between a client and a server that are at rest: the request arrives as it was meant, the answer
too, and both are at rest again.
-/

namespace Custody

namespace Connection

variable {host : Host} {chance : Nat → Nat → Supply} {n : Nat} {d : Connection} {held kept : Holdings}
  {s : Session} {body : Bytes} {reply : ResponseFrame}

theorem react_idle (opened : d.session.state ≠ .closed) (idle : d.stream.Idle (host.limitIn d.session))
    (fits : body.length ≤ host.limitIn d.session) (small : body.length < Frame.most)
    (heard : d.session.hear host (chance n 0) held body = (reply, s, kept)) (going : s.state ≠ .closed)
    (short : (ResponseFrame.codec.encode reply).length ≤ host.limitIn s) :
    ∃ stream, (peer host chance).react (n, d, held) (Frame.encode body) =
        ((n + 1, ⟨stream, s⟩, kept), Frame.encode (ResponseFrame.codec.encode reply), false) ∧
      stream.Idle (host.limitIn s) := by
  let c : Connection := { d with stream := d.stream.feed (Frame.encode body) }
  have live : c.Live host := ⟨opened, idle.bound, idle.bound ▸ idle.inlet.feed _⟩
  have all : c.stream.inlet.ahead = Frame.encode body ++ [] :=
    (Inlet.ahead_feed d.stream.inlet _).trans (by rw [idle.ahead, List.nil_append, List.append_nil])
  have first : Frame.front (host.limitIn c.session) c.stream.inlet.ahead = .frame body [] :=
    all ▸ Frame.front_encode fits small []
  obtain ⟨e, turned, next⟩ := turn_served live first heard idle.outlet going short
  -- nothing is left, so the second turn waits
  have none : Frame.front (host.limitIn e.session) e.stream.inlet.ahead = .short := by
    rw [next.ahead]
    exact Frame.front_short (Nat.succ_pos 3)
  have waits := turn_short next.live next.clear.unsent none (chance n 1) kept
  have open_ : e.stream.inlet.closed = false := next.inlet.trans idle.open_
  rw [if_neg (by simp [open_])] at waits
  obtain ⟨j, sound, ahead, closed, waiting⟩ := waits
  have served : c.serve host (chance n) 0 held = ⟨{ e with stream := { e.stream with inlet := j } }, kept, 1⟩ := by
    rw [serve_served turned, serve_stopped waiting (by decide)]
  have sent : e.stream.outlet.sent = Frame.encode (ResponseFrame.codec.encode reply) := by
    rw [next.sent]
    exact congrArg (· ++ _) idle.sent
  obtain ⟨stream, session⟩ := e
  cases next.session
  refine ⟨{ stream with inlet := j, outlet := { stream.outlet with sent := [] } }, ?_, ?_⟩
  · have unclosed : stream.outlet.closed = false := next.clear.closed
    have sent : stream.outlet.sent = Frame.encode (ResponseFrame.codec.encode reply) := sent
    simp only [peer]
    rw [served]
    simp only [Stream.collect, Outlet.collect, sent, unclosed]
  · exact ⟨next.live.limit, sound, ahead.trans next.ahead, closed, next.clear.sent [], rfl⟩

end Connection

namespace Client

variable {host : Host} {chance : Nat → Nat → Supply} {n : Nat} {d : Connection} {held kept : Holdings}
  {s : Session} {c : Client} {r : Request} {response : Response}

/-- How long a body may be that both sides accept, of a session that is open. -/
def sharedLimit (host : Host) (s : Session) : Nat := min (host.limitIn s) Settings.usualFrameLimit

theorem receive_answered {σ : Type} {peer : Peer σ} {before after : σ} {g : ResponseFrame}
    (idle : c.stream.Idle Settings.usualFrameLimit)
    (fits : (RequestFrame.codec.encode ⟨c.next, r⟩).length ≤ Settings.usualFrameLimit)
    (answered : peer.react before (Frame.encode (RequestFrame.codec.encode ⟨c.next, r⟩)) =
      (after, Frame.encode (ResponseFrame.codec.encode g), false))
    (writable : g.response.Writable) (short : (ResponseFrame.codec.encode g).length ≤ Settings.usualFrameLimit) :
    ∃ d e stream, c.send r = (.ok (), d) ∧ d.deliver peer before = (e, after) ∧
      e.stream.receive ResponseFrame.codec = (.message g, stream) ∧
      { e with stream } = { c with stream, next := c.next + 1 } ∧ stream.Idle Settings.usualFrameLimit := by
  have most : Settings.usualFrameLimit < Frame.most := by decide
  obtain ⟨sending, empty, sent, collected, resting⟩ := idle.send fits
  obtain ⟨stream, received, still⟩ := resting.receive short (Nat.lt_of_le_of_lt short most)
    (ResponseFrame.codec_faithful writable).decode_encode
  refine ⟨{ c with stream := sending, next := c.next + 1 }, { c with stream := empty.feed _, next := c.next + 1 },
    stream, ?_, ?_, received, rfl, still⟩
  · simp only [send, sent]
  · simp only [deliver, collected, answered, Bool.false_eq_true, if_false]

theorem ask_answered {σ : Type} {peer : Peer σ} {before after : σ} {g : ResponseFrame}
    (idle : c.stream.Idle Settings.usualFrameLimit)
    (fits : (RequestFrame.codec.encode ⟨c.next, r⟩).length ≤ Settings.usualFrameLimit)
    (answered : peer.react before (Frame.encode (RequestFrame.codec.encode ⟨c.next, r⟩)) =
      (after, Frame.encode (ResponseFrame.codec.encode g), false))
    (writable : g.response.Writable) (short : (ResponseFrame.codec.encode g).length ≤ Settings.usualFrameLimit) :
    ∃ stream, c.ask peer r before = (some (accept c.next g), { c with stream, next := c.next + 1 }, after) ∧
      stream.Idle Settings.usualFrameLimit := by
  obtain ⟨d, e, stream, sent, delivered, received, same, still⟩ := receive_answered idle fits answered writable short
  have number : e.next - 1 = c.next := by
    rw [show e.next = c.next + 1 from congrArg Client.next same]
    simp
  refine ⟨stream, ?_, still⟩
  simp only [ask, sent, delivered, await, received, number, same]

/-- A client at rest and a connection at rest exchange one request and its response, if both keep to the limits
of both sides. -/
theorem ask_idle (opened : d.session.state ≠ .closed) (server : d.stream.Idle (host.limitIn d.session))
    (client : c.stream.Idle Settings.usualFrameLimit)
    (fits : (RequestFrame.codec.encode ⟨c.next, r⟩).length ≤ sharedLimit host d.session)
    (heard : d.session.hear host (chance n 0) held (RequestFrame.codec.encode ⟨c.next, r⟩) =
      (⟨c.next, response⟩, s, kept))
    (going : s.state ≠ .closed) (writable : response.Writable)
    (short : (ResponseFrame.codec.encode ⟨c.next, response⟩).length ≤ sharedLimit host s) :
    ∃ stream rest, c.ask (Connection.peer host chance) r (n, d, held) =
        (some (accept c.next ⟨c.next, response⟩), { c with stream, next := c.next + 1 }, (n + 1, ⟨rest, s⟩, kept)) ∧
      stream.Idle Settings.usualFrameLimit ∧ rest.Idle (host.limitIn s) := by
  have most : Settings.usualFrameLimit < Frame.most := by decide
  obtain ⟨inServer, inClient⟩ := Nat.le_min.mp fits
  obtain ⟨outServer, outClient⟩ := Nat.le_min.mp short
  obtain ⟨rest, reacted, idle⟩ := Connection.react_idle opened server inServer (Nat.lt_of_le_of_lt inClient most)
    heard going outServer
  obtain ⟨stream, told, after⟩ := ask_answered client inClient reacted writable outClient
  exact ⟨stream, rest, told, after, idle⟩

end Client

end Custody
