import Custody.Proofs.Connection
import Custody.Proofs.Connection.Turn
import Custody.Proofs.Keeper
import Custody.Proofs.Vault.Reopening

/-!
Dialogues. However the bytes of a client are cut into pieces, a connection answers the frames that they spell,
one after another, until one of a few things ends it.
-/

namespace Custody

/-- A dialogue as it stands: how many frames were answered, the session, what the server holds, and what the
client has sent beyond those frames. -/
structure Dialogue where
  answered : Nat
  session : Session
  held : Holdings
  ahead : Bytes

namespace Dialogue

section Course

variable (host : Host) (chance : Nat → Supply) (late : Nat)

/-- Frames that are answered one after another, each with its reply. Frame and reply keep to the limit that is in
force, the session stays open, and the client is not gone before the reply: it is gone when the last `late`
bytes of all arrive. -/
inductive Runs (start : Dialogue) : List (Bytes × ResponseFrame) → Dialogue → Prop where
  | start : Runs start [] start
  | answer {exchanges : List (Bytes × ResponseFrame)} {d : Dialogue} {body rest : Bytes} {reply : ResponseFrame}
      {s : Session} {held : Holdings} (before : Runs start exchanges d)
      (front : Frame.front (host.limitIn d.session) d.ahead = .frame body rest)
      (heard : d.session.hear host (chance d.answered) d.held body = (reply, s, held))
      (fits : (ResponseFrame.codec.encode reply).length ≤ host.limitIn s)
      (opened : s.state ≠ .closed) (present : late ≤ rest.length) :
      Runs start (exchanges ++ [(body, reply)]) ⟨d.answered + 1, s, held, rest⟩

/-- How a dialogue ends, perhaps with a last reply, and what the server holds then. -/
inductive Ends (d : Dialogue) : Option ResponseFrame → Holdings → Prop where
  /-- Nothing more comes, or not the whole of a frame. -/
  | exhausted (front : Frame.front (host.limitIn d.session) d.ahead = .short) : Ends d none d.held
  /-- A head announces more than the limit in force. -/
  | tooBig (front : Frame.front (host.limitIn d.session) d.ahead = .tooBig) : Ends d none d.held
  /-- The reply is longer than the limit in force. -/
  | unsendable {body rest : Bytes} {reply : ResponseFrame} {s : Session} {held : Holdings}
      (front : Frame.front (host.limitIn d.session) d.ahead = .frame body rest)
      (heard : d.session.hear host (chance d.answered) d.held body = (reply, s, held))
      (long : host.limitIn s < (ResponseFrame.codec.encode reply).length) : Ends d none held
  /-- The client is gone before the reply. -/
  | gone {body rest : Bytes} {reply : ResponseFrame} {s : Session} {held : Holdings}
      (front : Frame.front (host.limitIn d.session) d.ahead = .frame body rest)
      (heard : d.session.hear host (chance d.answered) d.held body = (reply, s, held))
      (absent : rest.length < late) : Ends d none held
  /-- A wrong password. -/
  | refused {body rest : Bytes} {id : UInt64} {password : String}
      (front : Frame.front (host.limitIn d.session) d.ahead = .frame body rest)
      (unopened : d.session.state = .unauthenticated)
      (read : RequestFrame.codec.decode body = .ok ⟨id, .auth password⟩)
      (wrong : host.gateway.verify (Bytes.ofText password) = false)
      (fits : (ResponseFrame.codec.encode ⟨id, .ofFailure .authentication⟩).length ≤ host.strangerLimit)
      (present : late ≤ rest.length) : Ends d (some ⟨id, .ofFailure .authentication⟩) d.held

end Course

def written (replies : List ResponseFrame) : Bytes :=
  replies.flatMap fun f => Frame.encode (ResponseFrame.codec.encode f)

theorem written_append (first second : List ResponseFrame) :
    written (first ++ second) = written first ++ written second := List.flatMap_append

theorem written_singleton (f : ResponseFrame) :
    written [f] = Frame.encode (ResponseFrame.codec.encode f) := List.flatMap_singleton _ f

variable {host : Host} {chance : Nat → Supply} {late : Nat} {start d : Dialogue}
  {exchanges : List (Bytes × ResponseFrame)}

theorem Runs.ahead (runs : Runs host chance late start exchanges d) :
    start.ahead = (exchanges.flatMap fun e => Frame.encode e.1) ++ d.ahead := by
  induction runs with
  | start => rfl
  | answer before front heard fits opened present ih =>
    obtain ⟨shape, -, -⟩ := Frame.front_eq_frame.mp front
    rw [ih, shape, List.flatMap_append, List.flatMap_singleton, List.append_assoc]

theorem Runs.numbers (runs : Runs host chance late start exchanges d) :
    ∀ e ∈ exchanges, e.2.id = RequestFrame.numberIn e.1 := by
  induction runs with
  | start => exact nofun
  | answer before front heard fits opened present ih =>
    intro e member
    obtain earlier | last := List.mem_append.mp member
    · exact ih e earlier
    · cases List.mem_singleton.mp last
      exact Session.id_hear heard

end Dialogue

namespace Connection

open Dialogue (written)

def dialogue (c : Connection) (answered : Nat) (held : Holdings) (more : Bytes) : Dialogue :=
  ⟨answered, c.session, held, c.stream.inlet.ahead ++ more⟩

structure Progress.Stands (host : Host) (chance : Nat → Supply) (late : Nat) (start : Dialogue) (more : Bytes)
    (exchanges : List (Bytes × ResponseFrame)) (p : Progress) : Prop where
  runs : start.Runs host chance late exchanges (p.connection.dialogue p.served p.held more)
  live : p.connection.Live host
  clear : p.connection.stream.outlet.Clear
  sent : p.connection.stream.outlet.sent = written (exchanges.map (·.2))

inductive Progress.Follows (host : Host) (chance : Nat → Supply) (late : Nat) (start : Dialogue) (more : Bytes)
    (p : Progress) : Prop where
  | waits {exchanges : List (Bytes × ResponseFrame)} (stands : p.Stands host chance late start more exchanges)
      (open_ : p.connection.stream.inlet.closed = false)
      (front : Frame.front (host.limitIn p.connection.session) p.connection.stream.inlet.ahead = .short)
  | ended {exchanges : List (Bytes × ResponseFrame)} {d : Dialogue} {last : Option ResponseFrame}
      (runs : start.Runs host chance late exchanges d) (ends : d.Ends host chance late last p.held)
      (closed : p.connection.session.state = .closed)
      (sent : p.connection.stream.outlet.sent = written (exchanges.map (·.2) ++ last.toList))

variable {host : Host} {chance : Nat → Supply} {late : Nat} {start : Dialogue} {more : Bytes} {c d : Connection}
  {k : Nat} {held kept : Holdings} {exchanges : List (Bytes × ResponseFrame)}

theorem follows_of_over (runs : start.Runs host chance late exchanges (c.dialogue k held more))
    (sent : c.stream.outlet.sent = written (exchanges.map (·.2)))
    (ends : (c.dialogue k held more).Ends host chance late none kept) (ending : c.Over d) :
    Progress.Follows host chance late start more ⟨d, kept, k⟩ ∧ d.session.state = .closed := by
  refine ⟨.ended runs ends ending.closed ?_, ending.closed⟩
  rw [Option.toList_none, List.append_nil, ← sent]
  exact ending.sent

theorem turn_follows (stands : Progress.Stands host chance late start more exchanges ⟨c, held, k⟩)
    (present : late ≤ more.length) (last : c.stream.inlet.closed = true → more = []) :
    match c.turn host (chance k) held with
    | (.served, e, kept) => e.stream.inlet.closed = c.stream.inlet.closed ∧
        ∃ exchanges, Progress.Stands host chance late start more exchanges ⟨e, kept, k + 1⟩
    | (_, e, kept) => Progress.Follows host chance late start more ⟨e, kept, k⟩ ∧
        (c.stream.inlet.closed = true → e.session.state = .closed) := by
  have live : c.Live host := stands.live
  have clear : c.stream.outlet.Clear := stands.clear
  cases front : Frame.front (host.limitIn c.session) c.stream.inlet.ahead with
  | frame body rest =>
    have first := Frame.front_frame_append front more
    obtain ⟨⟨reply, s, kept⟩, heard⟩ : ∃ h, c.session.hear host (chance k) held body = h := ⟨_, rfl⟩
    by_cases long : host.limitIn s < (ResponseFrame.codec.encode reply).length
    · obtain ⟨e, turned, ending⟩ := turn_unsent live front heard clear.unsent (.inl long)
      obtain ⟨follows, closed⟩ := follows_of_over stands.runs stands.sent (.unsendable first heard long) ending
      rw [turned]
      exact ⟨follows, fun _ => closed⟩
    · have fits := Nat.not_lt.mp long
      have later : late ≤ (rest ++ more).length := by
        rw [List.length_append]
        omega
      by_cases closed : s.state = .closed
      · obtain ⟨e, turned, ended, replied⟩ := turn_closed live front heard clear closed fits
        obtain ⟨unopened, rfl, id, password, read, wrong, rfl⟩ := Session.hear_closed live.opened closed heard
        have outside : host.limitIn s = host.strangerLimit := by
          simp [Host.limitIn, Session.isAuthenticated, closed]
        rw [turned]
        have ends : (c.dialogue k kept more).Ends host chance late (some ⟨id, .ofFailure .authentication⟩) kept :=
          .refused first unopened read wrong (outside ▸ fits) later
        refine ⟨.ended stands.runs ends ended ?_, fun _ => ended⟩
        rw [replied, Dialogue.written_append, Option.toList_some, Dialogue.written_singleton, ← stands.sent]
      · obtain ⟨e, turned, next⟩ := turn_served live front heard clear closed fits
        have onward :
            start.Runs host chance late (exchanges ++ [(body, reply)]) (e.dialogue (k + 1) kept more) := by
          rw [dialogue, next.session, next.ahead]
          exact .answer stands.runs first heard fits closed later
        rw [turned]
        refine ⟨next.inlet, _, ⟨onward, next.live, next.clear, ?_⟩⟩
        rw [List.map_append, Dialogue.written_append, List.map_singleton, Dialogue.written_singleton,
          ← stands.sent]
        exact next.sent
  | tooBig =>
    obtain ⟨e, turned, ending⟩ := turn_tooBig live clear.unsent front (chance k) held
    have big : Frame.front (host.limitIn c.session) (c.dialogue k held more).ahead = .tooBig :=
      Frame.front_tooBig_append front more
    obtain ⟨follows, closed⟩ := follows_of_over stands.runs stands.sent (.tooBig big) ending
    rw [turned]
    exact ⟨follows, fun _ => closed⟩
  | short =>
    have turned := turn_short live clear.unsent front (chance k) held
    split at turned
    · rename_i finished
      obtain ⟨e, turned, ending⟩ := turned
      -- nothing more comes, so what is short stays short
      have short : Frame.front (host.limitIn c.session) (c.dialogue k held more).ahead = .short := by
        rw [last finished, dialogue, List.append_nil, front]
      obtain ⟨follows, closed⟩ := follows_of_over stands.runs stands.sent (.exhausted short) ending
      rw [turned]
      exact ⟨follows, fun _ => closed⟩
    · rename_i unfinished
      obtain ⟨j, sound, ahead, open_, turned⟩ := turned
      have same : start.Runs host chance late exchanges (dialogue
          { c with stream := { c.stream with inlet := j } } k held more) := by
        simpa only [dialogue, ahead] using stands.runs
      rw [turned]
      refine ⟨.waits ⟨same, ⟨live.opened, live.limit, live.limit ▸ sound⟩, clear, stands.sent⟩ open_ ?_, ?_⟩
      · rw [ahead, front]
      · exact fun finished => absurd finished unfinished

theorem serve_follows (stands : Progress.Stands host chance late start more exchanges ⟨c, held, k⟩)
    (present : late ≤ more.length) (last : c.stream.inlet.closed = true → more = []) :
    (c.serve host chance k held).Follows host chance late start more ∧
      (c.stream.inlet.closed = true → (c.serve host chance k held).connection.session.state = .closed) := by
  induction weighed : c.stream.inlet.weight using Nat.strongRecOn generalizing c k held exchanges with
  | ind weight ih =>
    have follows := turn_follows stands present last
    generalize turned : c.turn host (chance k) held = q at follows
    obtain ⟨t, e, kept⟩ := q
    cases t with
    | waiting | ended =>
      rw [serve_stopped turned (by decide)]
      exact follows
    | served =>
      obtain ⟨same, exchanges, onward⟩ := follows
      rw [serve_served turned, ← same]
      exact ih _ (weighed ▸ weight_turn turned) onward (same ▸ last) rfl

def Progress.reach (host : Host) (chance : Nat → Supply) (change : Stream → Stream) (p : Progress) : Progress :=
  { p.connection with stream := change p.connection.stream }.serve host chance p.served p.held

def Progress.arrive (host : Host) (chance : Nat → Supply) (p : Progress) (pieces : List Bytes) : Progress :=
  pieces.foldl (fun p b => p.reach host chance (·.feed b)) p

def Progress.finish (host : Host) (chance : Nat → Supply) (p : Progress) (last : Bytes) (gone : Bool) : Progress :=
  p.reach host chance fun s => if gone then (s.feed last).hangUp else (s.feed last).finish

namespace Progress

variable {p : Progress} {last : Bytes}

theorem reach_closed (closed : p.connection.session.state = .closed) (change : Stream → Stream) :
    p.reach host chance change = ⟨{ p.connection with stream := change p.connection.stream }, p.held, p.served⟩ :=
  serve_stopped (if_pos closed) (by decide)

theorem session_reach (opened : p.connection.session.state = .authenticated) (change : Stream → Stream) :
    (p.reach host chance change).connection.session = p.connection.session ∨
      (p.reach host chance change).connection.session.state = .closed :=
  session_serve (c := { p.connection with stream := change p.connection.stream }) opened _ _

theorem arrive_append_singleton (p : Progress) (pieces : List Bytes) (b : Bytes) :
    p.arrive host chance (pieces ++ [b]) = (p.arrive host chance pieces).reach host chance (·.feed b) := by
  rw [arrive, List.foldl_append]
  rfl

theorem session_arrive (opened : p.connection.session.state = .authenticated) (pieces : List Bytes) :
    (p.arrive host chance pieces).connection.session = p.connection.session ∨
      (p.arrive host chance pieces).connection.session.state = .closed := by
  induction pieces using List.reverseRecOn with
  | nil => exact .inl rfl
  | append_singleton pieces b ih =>
    rw [arrive_append_singleton]
    rcases ih with same | closed
    · rw [← same] at opened ⊢
      exact session_reach opened _
    · rw [reach_closed closed]
      exact .inr closed

namespace Follows

theorem reach_ended {exchanges : List (Bytes × ResponseFrame)} {d : Dialogue} {final : Option ResponseFrame}
    (runs : start.Runs host chance late exchanges d) (ends : d.Ends host chance late final p.held)
    (closed : p.connection.session.state = .closed)
    (sent : p.connection.stream.outlet.sent = written (exchanges.map (·.2) ++ final.toList))
    {change : Stream → Stream}
    (same : (change p.connection.stream).outlet.sent = p.connection.stream.outlet.sent) :
    (p.reach host chance change).Follows host chance late start more ∧
      (p.reach host chance change).connection.session.state = .closed := by
  rw [reach_closed closed]
  exact ⟨.ended runs ends closed (same.trans sent), closed⟩

theorem feed {b : Bytes} (follows : p.Follows host chance late start (b ++ more)) (present : late ≤ more.length) :
    (p.reach host chance (·.feed b)).Follows host chance late start more := by
  cases follows with
  | @waits exchanges stands open_ front =>
    obtain ⟨runs, live, clear, sent⟩ := stands
    let c : Connection := { p.connection with stream := p.connection.stream.feed b }
    have onward : start.Runs host chance late exchanges (c.dialogue p.served p.held more) := by
      have ahead : c.stream.inlet.ahead = p.connection.stream.inlet.ahead ++ b :=
        Inlet.ahead_feed p.connection.stream.inlet b
      rw [dialogue, ahead, List.append_assoc]
      exact runs
    have fed : c.Live host := ⟨live.opened, live.limit, live.inlet.feed b⟩
    have closed : c.stream.inlet.closed = false := open_
    exact (serve_follows ⟨onward, fed, clear, sent⟩ present fun finished => by cases closed.symm.trans finished).1
  | ended runs ends closed sent => exact (reach_ended runs ends closed sent rfl).1

theorem arrive {pieces : List Bytes} (follows : p.Follows host chance late start (pieces.flatten ++ last))
    (present : late ≤ last.length) : (p.arrive host chance pieces).Follows host chance late start last := by
  induction pieces generalizing p with
  | nil => exact follows
  | cons b pieces ih =>
    rw [List.flatten_cons, List.append_assoc] at follows
    exact ih (follows.feed (by rw [List.length_append]; omega))

theorem finish (follows : p.Follows host chance 0 start last) :
    let q := p.reach host chance fun s => (s.feed last).finish
    q.Follows host chance 0 start [] ∧ q.connection.session.state = .closed := by
  cases follows with
  | @waits exchanges stands open_ front =>
    obtain ⟨runs, live, clear, sent⟩ := stands
    let c : Connection := { p.connection with stream := (p.connection.stream.feed last).finish }
    have onward : start.Runs host chance 0 exchanges (c.dialogue p.served p.held []) := by
      have ahead : c.stream.inlet.ahead = p.connection.stream.inlet.ahead ++ last :=
        Inlet.ahead_feed p.connection.stream.inlet last
      rw [dialogue, List.append_nil, ahead]
      exact runs
    have fed : c.Live host := ⟨live.opened, live.limit, (live.inlet.feed last).finish⟩
    obtain ⟨after, closed⟩ := serve_follows ⟨onward, fed, clear, sent⟩ (Nat.zero_le _) fun _ => rfl
    exact ⟨after, closed rfl⟩
  | ended runs ends closed sent => exact reach_ended runs ends closed sent rfl

theorem hangUp (follows : p.Follows host chance last.length start last) :
    let q := p.reach host chance fun s => (s.feed last).hangUp
    q.Follows host chance last.length start [] ∧ q.connection.session.state = .closed := by
  cases follows with
  | @waits exchanges stands open_ front =>
    obtain ⟨runs, live, clear, sent⟩ := stands
    let c : Connection := { p.connection with stream := (p.connection.stream.feed last).hangUp }
    have ahead : c.stream.inlet.ahead = p.connection.stream.inlet.ahead ++ last :=
      Inlet.ahead_feed p.connection.stream.inlet last
    have fed : c.Live host := ⟨live.opened, live.limit, (live.inlet.feed last).finish⟩
    have unsent : c.stream.outlet.unsent = [] := clear.unsent
    -- nothing can be sent any more, so one turn ends the connection
    obtain ⟨e, kept, turned, ending, ends⟩ : ∃ e kept, c.turn host (chance p.served) p.held = (.ended, e, kept) ∧
        c.Over e ∧ (p.connection.dialogue p.served p.held last).Ends host chance last.length none kept := by
      cases found : Frame.front (host.limitIn c.session) c.stream.inlet.ahead with
      | frame body rest =>
        obtain ⟨⟨reply, s, kept⟩, heard⟩ : ∃ h, c.session.hear host (chance p.served) p.held body = h := ⟨_, rfl⟩
        obtain ⟨e, turned, ending⟩ := turn_unsent fed found heard unsent (.inr rfl)
        rw [ahead] at found
        exact ⟨e, kept, turned, ending, .gone found heard (Frame.length_rest_lt front found)⟩
      | tooBig =>
        obtain ⟨e, turned, ending⟩ := turn_tooBig fed unsent found (chance p.served) p.held
        rw [ahead] at found
        exact ⟨e, p.held, turned, ending, .tooBig found⟩
      | short =>
        obtain ⟨e, turned, ending⟩ := turn_short fed unsent found (chance p.served) p.held
        rw [ahead] at found
        exact ⟨e, p.held, turned, ending, .exhausted found⟩
    have onward : c.dialogue p.served p.held [] = p.connection.dialogue p.served p.held last := by
      rw [dialogue, List.append_nil, ahead]
      rfl
    rw [← onward] at runs ends
    have stopped : p.reach host chance (fun s => (s.feed last).hangUp) = ⟨e, kept, p.served⟩ :=
      serve_stopped turned (by decide)
    rw [stopped]
    exact follows_of_over runs sent ends ending
  | ended runs ends closed sent => exact reach_ended runs ends closed sent rfl

end Follows

end Progress

theorem live_accept (host : Host) (handle : Bytes.Sized 16) (peer : Address) :
    (accept host (.start handle peer)).Live host := ⟨nofun, rfl, Inlet.sound_fresh⟩

/-- A connection comes to its end on every row of bytes, however they arrive. It answers the frames that they
spell, one after another and each under its number, and stops exactly where the dialogue ends; and a session that
is authenticated stays so until then. -/
theorem answers_in_order (host : Host) (chance : Nat → Supply) (handle : Bytes.Sized 16) (peer : Address)
    (held : Holdings) (pieces : List Bytes) (last : Bytes) (gone : Bool) :
    let start : Dialogue := ⟨0, .start handle peer, held, pieces.flatten ++ last⟩
    let late := if gone then last.length else 0
    let p : Progress := ⟨accept host (.start handle peer), held, 0⟩
    let q := (p.arrive host chance pieces).finish host chance last gone
    (∃ exchanges standing final, start.Runs host chance late exchanges standing ∧
      standing.Ends host chance late final q.held ∧ q.connection.session.state = .closed ∧
      q.connection.stream.outlet.sent = written (exchanges.map (·.2) ++ final.toList) ∧
      start.ahead = (exchanges.flatMap fun e => Frame.encode e.1) ++ standing.ahead ∧
      ∀ e ∈ exchanges, e.2.id = RequestFrame.numberIn e.1) ∧
    ∀ p : Progress, p.connection.session.state = .authenticated →
      (p.arrive host chance pieces).connection.session = p.connection.session ∨
        (p.arrive host chance pieces).connection.session.state = .closed := by
  intro start late p q
  have fresh : p.Follows host chance late start (pieces.flatten ++ last) :=
    .waits ⟨.start, live_accept host handle peer, Outlet.clear_fresh, rfl⟩ rfl (Frame.front_short (Nat.succ_pos 3))
  have least : late ≤ last.length := by
    unfold late
    split <;> omega
  have done : q.Follows host chance late start [] ∧ q.connection.session.state = .closed := by
    have ran := fresh.arrive least
    unfold late at *
    cases gone with
    | true => exact ran.hangUp
    | false => exact ran.finish
  obtain ⟨follows, closed⟩ := done
  constructor
  · cases follows with
    | waits stands => exact absurd closed stands.live.opened
    | ended runs ends closed sent => exact ⟨_, _, _, runs, ends, closed, sent, runs.ahead, runs.numbers⟩
  · intro p opened
    exact p.session_arrive opened pieces

theorem answers_in_order_twice :
    let host : Host := ⟨.ofPassword (Bytes.ofText "p"), ⟨.plain, false⟩, 4096, .plain⟩
    let handle : Bytes.Sized 16 := ⟨List.replicate 16 0, rfl⟩
    let origin : Address := .four [127, 0, 0, 1] 5001
    let chance : Nat → Supply := fun _ => ⟨.plain, .plain, .smooth⟩
    let held : Holdings := ⟨.plain Draw.plain.salt, .empty .root⟩
    let frame (f : RequestFrame) : Bytes := Frame.encode (RequestFrame.codec.encode f)
    let wrong := [frame ⟨2, .auth "q"⟩]
    let p := Progress.arrive host chance ⟨accept host (.start handle origin), held, 0⟩ [frame ⟨1, .auth "p"⟩]
    p.connection.session.state = .authenticated ∧
      (p.arrive host chance wrong).connection.session = p.connection.session := by
  intro host handle origin chance held frame wrong p
  have opened : p.connection.session.state = .authenticated := by decide +kernel
  have answered : (p.arrive host chance wrong).connection.session.state ≠ .closed := by decide +kernel
  obtain ⟨-, stays⟩ := answers_in_order host chance handle origin held wrong [] false
  exact ⟨opened, (stays p opened).resolve_right answered⟩

end Connection

end Custody
