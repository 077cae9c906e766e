import Custody.Proofs.Client.Exchange
import Custody.Proofs.Run

/-!
Which response a call takes for its own. The server is anyone: it may send any bytes, too early, too late, twice
or not at all. A call reads one frame at most, and what it tells is from that frame; it was meant for this call,
unless it is a frame with the number 0.
-/

namespace Custody

/-- The reply that a call makes of a response of its own kind. -/
inductive Call.Belongs : Call → Response → Reply → Prop where
  | put {id : String} {material : Bytes} {metadata : Metadata} {b : Bool} :
      Belongs (.put id material metadata) (.stored b) (.replaced b)
  | get {id : String} {material : Bytes} : Belongs (.get id) (.key material) (.material material)
  | delete {id : String} {b : Bool} : Belongs (.delete id) (.deleted b) (.existed b)
  | list {summaries : List Summary} : Belongs .list (.keys summaries) (.summaries summaries)
  | contains {id : String} {b : Bool} : Belongs (.contains id) (.contains b) (.found b)
  | count {n : Nat} : Belongs .count (.count n) (.count n)
  | clear {n : Nat} : Belongs .clear (.cleared n) (.removed n)
  | save {n : Nat} : Belongs .save (.saved n) (.saved n)
  | ping : Belongs .ping .pong .done

theorem Call.reply_eq_ok {k : Call} {r : Response} {v : Reply} : k.reply r = .ok v ↔ k.Belongs r v := by
  constructor
  · intro replied
    cases k <;> cases r <;> cases replied <;> constructor
  · intro belongs
    cases belongs <;> rfl

theorem Call.Belongs.unfailed {k : Call} {r : Response} {v : Reply} (belongs : k.Belongs r v) (kind : FailureKind)
    (message : String) : r ≠ .failed kind message := by
  rintro rfl
  cases belongs

namespace Stream

def taken? (s : Stream) : Option Bytes :=
  match (s.inlet.receive s.limit).1 with
  | .message body => some body
  | _ => none

theorem frame_receive (s : Stream) :
    (s.inlet.receive s.limit).1.frame = (s.taken?.map Frame.encode).getD [] := by
  unfold taken?
  cases (s.inlet.receive s.limit).1 <;> rfl

theorem receive_eq_message {α : Type} {c : Json.Codec α} {s : Stream} {a : α} :
    (s.receive c).1 = .message a ↔ ∃ body, s.taken? = some body ∧ c.decode body = .ok a := by
  unfold receive taken?
  cases s.inlet.receive s.limit with
  | mk r j =>
    cases r with
    | message body => cases read : c.decode body <;> simp [read]
    | finished | pending | failed => simp

end Stream

/-- What is seen of one call: the request that it hands to its stream, the bytes that reach the server and those
that come back, the body that is read, and what the caller is told. -/
structure Exchange where
  call : Call
  handed : Option RequestFrame
  sent : Bytes
  arrived : Bytes
  read : Option Bytes
  told : Option (Except Failure Reply)

namespace Exchange

def frame (e : Exchange) : Bytes := (e.read.map Frame.encode).getD []

def response? (e : Exchange) : Option ResponseFrame :=
  e.read.bind fun body => (ResponseFrame.codec.decode body).toOption

/-- The request that is handed over is sent as one frame if it fits, and otherwise not at all. -/
def Sent (e : Exchange) : Prop :=
  e.sent = match e.handed with
    | some f =>
      if (RequestFrame.codec.encode f).length ≤ Settings.usualFrameLimit then Frame.encode (RequestFrame.codec.encode f)
      else []
    | none => []

/-- A call that succeeds has read a response of its own kind, with the number of its own request. -/
def Own (e : Exchange) : Prop :=
  ∀ v, e.told = some (.ok v) →
    ∃ f g, e.handed = some f ∧ e.response? = some g ∧ g.id = f.id ∧ e.call.Belongs g.response v

/-- A call succeeds exactly if it has read such a response, but the number 0 goes for any. -/
def OwnOrZero (e : Exchange) : Prop :=
  ∀ v, e.told = some (.ok v) ↔
    ∃ f g, e.handed = some f ∧ e.response? = some g ∧ (g.id = f.id ∨ g.id = 0) ∧ e.call.Belongs g.response v

theorem response?_eq_some {e : Exchange} {g : ResponseFrame} :
    e.response? = some g ↔ ∃ body, e.read = some body ∧ ResponseFrame.codec.decode body = .ok g := by
  unfold response?
  rw [Option.bind_eq_some_iff]
  refine exists_congr fun body => and_congr_right fun _ => ?_
  cases ResponseFrame.codec.decode body <;> simp [Except.toOption]

theorem ownOrZero_of_failed {e : Exchange} {f : Failure} (failed : e.told = some (.error f)) (unread : e.read = none) :
    e.OwnOrZero := by
  intro v
  simp [failed, response?, unread]

end Exchange

namespace Client

variable {σ : Type} {peer : Peer σ} {c : Client} {s : σ} {k : Call} {r : Request}

def exchange (peer : Peer σ) (p : Client × σ) (k : Call) : Exchange × Client × σ :=
  let (told, after) := p.1.call peer k p.2
  let (handed, sent, arrived, read) : Option RequestFrame × Bytes × Bytes × Option Bytes :=
    match k.request with
    | .error _ => (none, [], [], none)
    | .ok r =>
      match p.1.send r with
      | (.error _, _) => (some ⟨p.1.next, r⟩, [], [], none)
      | (.ok (), c) =>
        let sent := c.stream.outlet.sent
        (some ⟨p.1.next, r⟩, sent, (peer.react p.2 sent).2.1, (c.deliver peer p.2).1.stream.taken?)
  (⟨k, handed, sent, arrived, read, told⟩, after)

structure Sound (c : Client) : Prop where
  limit : c.stream.limit = Settings.usualFrameLimit
  intake : c.stream.inlet.intake.Sound Settings.usualFrameLimit
  outlet : c.stream.outlet.Clear

/-- What holds of a client between its calls: besides, all that it sent was delivered. -/
structure Steady (c : Client) : Prop extends c.Sound where
  sent : c.stream.outlet.sent = []

theorem steady_fresh : fresh.Steady := ⟨⟨rfl, nofun, Outlet.clear_fresh⟩, rfl⟩

theorem Steady.labelled (steady : c.Steady) (next : UInt64) (session : String) : Steady ⟨c.stream, next, session⟩ :=
  ⟨⟨steady.limit, steady.intake, steady.outlet⟩, steady.sent⟩

theorem Steady.send_fits (steady : c.Steady)
    (fits : (RequestFrame.codec.encode ⟨c.next, r⟩).length ≤ Settings.usualFrameLimit) :
    ∃ d, c.send r = (.ok (), d) ∧ d.Sound ∧ d.next = c.next + 1 ∧ d.stream.inlet = c.stream.inlet ∧
      d.stream.outlet.sent = Frame.encode (RequestFrame.codec.encode ⟨c.next, r⟩) := by
  obtain ⟨⟨limit, intake, clear⟩, sent⟩ := steady
  have accepted := Stream.send_accepted clear (limit ▸ fits)
  rw [sent, List.nil_append] at accepted
  let o : Outlet := { c.stream.outlet with sent := Frame.encode (RequestFrame.codec.encode ⟨c.next, r⟩) }
  refine ⟨{ c with stream := { c.stream with outlet := o }, next := c.next + 1 }, ?_, ?_, rfl, rfl, rfl⟩
  · simp only [send, accepted, o]
  · exact ⟨limit, intake, clear.sent _⟩

theorem Steady.send_big (steady : c.Steady)
    (big : ¬(RequestFrame.codec.encode ⟨c.next, r⟩).length ≤ Settings.usualFrameLimit) :
    c.send r = (.error (.io (Frame.tooBig .invalidInput)), { c with next := c.next + 1 }) := by
  have refused := Stream.send_refused steady.outlet (steady.limit ▸ Nat.not_le.mp big)
  simp only [send, refused]

theorem Sound.deliver (sound : c.Sound) (peer : Peer σ) (s : σ) :
    let d := (c.deliver peer s).1
    d.Steady ∧ d.next = c.next ∧
      d.stream.inlet.ahead = c.stream.inlet.ahead ++ (peer.react s c.stream.outlet.sent).2.1 := by
  obtain ⟨limit, intake, clear⟩ := sound
  intro d
  have ahead := Inlet.ahead_feed c.stream.inlet (peer.react s c.stream.outlet.sent).2.1
  have after :
      d.Steady ∧ d.stream.inlet.ahead = (c.stream.inlet.feed (peer.react s c.stream.outlet.sent).2.1).ahead := by
    cases ended : (peer.react s c.stream.outlet.sent).2.2 <;>
      simp only [d, Client.deliver, Stream.collect, Outlet.collect, ended, Bool.false_eq_true, if_false, if_true] <;>
      exact ⟨⟨⟨limit, intake, clear.sent []⟩, rfl⟩, rfl⟩
  exact ⟨after.1, rfl, after.2.trans ahead⟩

theorem Steady.await (steady : c.Steady) :
    let d := c.await.2
    d.Steady ∧ d.next = c.next ∧
      c.stream.inlet.ahead = (c.stream.taken?.map Frame.encode).getD [] ++ d.stream.inlet.ahead := by
  obtain ⟨⟨limit, intake, clear⟩, sent⟩ := steady
  intro d
  obtain ⟨left, taken⟩ := Inlet.receive_ahead (limit ▸ intake)
  rw [Stream.frame_receive] at taken
  exact ⟨⟨⟨limit, limit ▸ left, clear⟩, sent⟩, rfl, taken⟩

theorem accept_eq_ok {id : UInt64} {g : ResponseFrame} {response : Response} :
    accept id g = .ok response ↔
      (g.id = id ∨ g.id = 0) ∧ g.response = response ∧ ∀ kind message, response ≠ .failed kind message := by
  have mine : (g.id != id && g.id != 0) = true ↔ ¬(g.id = id ∨ g.id = 0) := by simp
  unfold accept
  by_cases own : g.id = id ∨ g.id = 0
  · rw [if_neg (by simpa only [mine, not_not] using own)]
    cases given : g.response <;> grind
  · rw [if_pos (mine.mpr own)]
    simp [own]

theorem await_eq_ok {d : Client} {response : Response} : d.await.1 = some (.ok response) ↔
    ∃ body g, d.stream.taken? = some body ∧ ResponseFrame.codec.decode body = .ok g ∧
      accept (d.next - 1) g = .ok response := by
  have heard {g : ResponseFrame} := Stream.receive_eq_message (c := ResponseFrame.codec) (s := d.stream) (a := g)
  unfold await
  cases received : d.stream.receive ResponseFrame.codec with
  | mk receipt stream =>
    rw [received] at heard
    cases receipt with
    | message g =>
      obtain ⟨body, taken, read⟩ := heard.mp rfl
      constructor
      · intro told
        exact ⟨body, g, taken, read, Option.some.inj told⟩
      · rintro ⟨other, h, same, again, accepted⟩
        cases taken.symm.trans same
        cases read.symm.trans again
        exact congrArg some accepted
    | pending | finished | failed =>
      constructor
      · intro told
        cases told
      · rintro ⟨body, g, taken, read, -⟩
        cases heard.mpr ⟨body, taken, read⟩

theorem told_eq_ok {awaited : Option (Except Failure Response)} {v : Reply} :
    (awaited.map fun r => r.bind k.reply) = some (.ok v) ↔
      ∃ response, awaited = some (.ok response) ∧ k.Belongs response v := by
  simp only [← Call.reply_eq_ok]
  cases awaited with
  | none => simp
  | some result => cases result <;> simp [Except.bind]

structure Follows (c : Client) (e : Exchange) (d : Client) : Prop where
  steady : d.Steady
  numbered : ∀ f, e.handed = some f → f.id = c.next
  next : d.next = if e.handed.isSome then c.next + 1 else c.next
  ahead : c.stream.inlet.ahead ++ e.arrived = e.frame ++ d.stream.inlet.ahead
  sent : e.Sent
  ownOrZero : e.OwnOrZero

theorem exchange_follows (steady : c.Steady) (peer : Peer σ) (s : σ) (k : Call) :
    c.Follows (exchange peer (c, s) k).1 (exchange peer (c, s) k).2.1 := by
  unfold exchange call
  cases made : k.request with
  | error failure =>
    refine ⟨steady, fun f given => ?_, rfl, List.append_nil _, rfl, Exchange.ownOrZero_of_failed rfl rfl⟩
    cases given
  | ok r =>
    by_cases fits : (RequestFrame.codec.encode ⟨c.next, r⟩).length ≤ Settings.usualFrameLimit
    · obtain ⟨d, sent, sound, next, inlet, out⟩ := steady.send_fits fits
      obtain ⟨delivered, number, ahead⟩ := sound.deliver peer s
      obtain ⟨after, still, taken⟩ := delivered.await
      simp only [ask, sent]
      have own : (d.deliver peer s).1.next - 1 = c.next := by simp [number, next]
      refine ⟨after, fun f given => ?_, still.trans (number.trans next), ?_, ?_, fun v => ?_⟩
      · cases given
        rfl
      · exact (congrArg (· ++ _) (congrArg Inlet.ahead inlet.symm)).trans (ahead.symm.trans taken)
      · exact out.trans (if_pos fits).symm
      · rw [told_eq_ok]
        constructor
        · rintro ⟨response, awaited, belongs⟩
          obtain ⟨body, g, read, decoded, accepted⟩ := await_eq_ok.mp awaited
          obtain ⟨mine, rfl, -⟩ := accept_eq_ok.mp (own ▸ accepted)
          exact ⟨_, g, rfl, Exchange.response?_eq_some.mpr ⟨body, read, decoded⟩, mine, belongs⟩
        · rintro ⟨f, g, given, responded, mine, belongs⟩
          cases given
          obtain ⟨body, read, decoded⟩ := Exchange.response?_eq_some.mp responded
          have accepted := accept_eq_ok.mpr ⟨mine, rfl, belongs.unfailed⟩
          exact ⟨_, await_eq_ok.mpr ⟨body, g, read, decoded, own ▸ accepted⟩, belongs⟩
    · have refused := steady.send_big fits
      simp only [ask, refused]
      refine ⟨steady.labelled (c.next + 1) c.session, fun f given => ?_, rfl, List.append_nil _,
        (if_neg fits).symm, Exchange.ownOrZero_of_failed rfl rfl⟩
      cases given
      rfl

theorem Steady.ask (steady : c.Steady) (peer : Peer σ) (r : Request) (s : σ) :
    (c.ask peer r s).2.1.Steady ∧ (c.ask peer r s).2.1.next = c.next + 1 := by
  by_cases fits : (RequestFrame.codec.encode ⟨c.next, r⟩).length ≤ Settings.usualFrameLimit
  · obtain ⟨d, sent, sound, next, -⟩ := steady.send_fits fits
    obtain ⟨delivered, number, -⟩ := sound.deliver peer s
    obtain ⟨after, still, -⟩ := delivered.await
    simp only [Client.ask, sent]
    exact ⟨after, still.trans (number.trans next)⟩
  · simp only [Client.ask, steady.send_big fits]
    exact ⟨steady.labelled (c.next + 1) c.session, trivial⟩

theorem connect_steady {network : Network} {address : Address} {password : String} {t : σ}
    (connected : connect network address peer password s = (some (.ok c), t)) : c.Steady ∧ c.next = 2 := by
  obtain ⟨steady, next⟩ := steady_fresh.ask peer (.auth password) s
  unfold connect at connected
  generalize fresh.ask peer (.auth password) s = asked at steady next connected
  obtain ⟨response, d, u⟩ := asked
  split at connected
  · cases connected
  · obtain ⟨told, -⟩ := Prod.mk.inj connected
    obtain ⟨result, -, bound⟩ := Option.map_eq_some_iff.mp told
    cases result with
    | error => cases bound
    | ok response =>
      cases response <;> cases bound
      exact ⟨steady.labelled d.next _, next⟩

def history (peer : Peer σ) (p : Client × σ) (calls : List Call) : List Exchange := (runOn (exchange peer) p calls).1

theorem history_call (p : Client × σ) (calls : List Call) : (history peer p calls).map Exchange.call = calls := by
  induction calls generalizing p with
  | nil => rfl
  | cons k calls ih => exact congrArg (List.cons k) (ih _)

theorem history_sound (steady : c.Steady) (calls : List Call) :
    ∀ e ∈ history peer (c, s) calls, e.Sent ∧ e.OwnOrZero := by
  refine runOn_forall (P := fun p => p.1.Steady) (fun p k _ steady => ?_) steady
  have follows := exchange_follows steady peer p.2 k
  exact ⟨⟨follows.sent, follows.ownOrZero⟩, follows.steady⟩

theorem history_ahead (steady : c.Steady) (calls : List Call) :
    let last := (runOn (exchange peer) (c, s) calls).2.1
    c.stream.inlet.ahead ++ (history peer (c, s) calls).flatMap Exchange.arrived =
      (history peer (c, s) calls).flatMap Exchange.frame ++ last.stream.inlet.ahead := by
  induction calls generalizing c s with
  | nil => exact List.append_nil _
  | cons k calls ih =>
    have follows := exchange_follows steady peer s k
    have rest := ih (s := (exchange peer (c, s) k).2.2) follows.steady
    simp only [history, runOn, List.flatMap_cons] at rest ⊢
    rw [← List.append_assoc, follows.ahead, List.append_assoc, rest, List.append_assoc]

theorem history_numbered (steady : c.Steady) {calls : List Call} (few : c.next.toNat + calls.length < 2 ^ 64) :
    let handed := (history peer (c, s) calls).filterMap Exchange.handed
    handed.map (fun f => f.id.toNat) = List.range' c.next.toNat handed.length := by
  induction calls generalizing c s with
  | nil => rfl
  | cons k calls ih =>
    obtain ⟨after, numbered, next, -⟩ := exchange_follows steady peer s k
    have rest := ih (s := (exchange peer (c, s) k).2.2) after
    rw [List.length_cons] at few
    simp only [history, runOn] at rest ⊢
    cases first : (exchange peer (c, s) k).1.handed with
    | none =>
      have next : (exchange peer (c, s) k).2.1.next = c.next := next.trans (if_neg (by simp [first]))
      rw [next] at rest
      rw [List.filterMap_cons_none first]
      exact rest (by omega)
    | some f =>
      have next : (exchange peer (c, s) k).2.1.next = c.next + 1 := next.trans (if_pos (by simp [first]))
      have successor : (c.next + 1).toNat = c.next.toNat + 1 := by
        rw [UInt64.toNat_add, Nat.mod_eq_of_lt (by simp; omega)]
        rfl
      rw [next, successor] at rest
      rw [List.filterMap_cons_some first, List.map_cons, List.length_cons, List.range'_succ, numbered f first]
      exact congrArg _ (rest (by omega))

theorem history_told (p : Client × σ) (calls : List Call) :
    (history peer p calls).map Exchange.told = (runOn (fun p k => p.1.call peer k p.2) p calls).1 := by
  induction calls generalizing p with
  | nil => rfl
  | cons k calls ih => exact congrArg (List.cons _) (ih _)

/-- Calls over a connection to a server that may send anything. Their requests are numbered from 2 on; no byte that
arrives is read twice, and each call reads one frame at most; a call succeeds exactly if this is a response of its
own kind, with the number of its own request or 0. So each success is the call's own exactly if none is on a frame
with the number 0. -/
theorem successes_own_iff {network : Network} {address : Address} {password : String} {t : σ}
    (connected : connect network address peer password s = (some (.ok c), t)) {calls : List Call}
    (few : calls.length < 2 ^ 64 - 2) :
    let seen := history peer (c, t) calls
    let handed := seen.filterMap Exchange.handed
    let left := (runOn (exchange peer) (c, t) calls).2.1.stream.inlet.ahead
    seen.map Exchange.call = calls ∧
      seen.map Exchange.told = (runOn (fun p k => p.1.call peer k p.2) (c, t) calls).1 ∧
      handed.map (fun f => f.id.toNat) = List.range' 2 handed.length ∧
      c.stream.inlet.ahead ++ seen.flatMap Exchange.arrived = seen.flatMap Exchange.frame ++ left ∧
      (∀ e ∈ seen, e.Sent ∧ e.OwnOrZero) ∧
      ((∀ e ∈ seen, e.Own) ↔
        ∀ e ∈ seen, ∀ g, e.response? = some g → g.id = 0 → ∀ v, e.told ≠ some (.ok v)) := by
  intro seen handed left
  obtain ⟨steady, next⟩ := connect_steady connected
  have second : c.next.toNat = 2 := congrArg UInt64.toNat next
  have numbered : handed.map (fun f => f.id.toNat) = List.range' 2 handed.length :=
    second ▸ history_numbered steady (by omega)
  have sound : ∀ e ∈ seen, e.Sent ∧ e.OwnOrZero := history_sound steady calls
  refine ⟨history_call _ calls, history_told _ calls, numbered, history_ahead steady calls, sound, ?_⟩
  constructor
  · intro own e member g read zero v told
    obtain ⟨f, h, given, same, mine, -⟩ := own e member v told
    cases read.symm.trans same
    have listed : f.id.toNat ∈ handed.map fun f => f.id.toNat :=
      List.mem_map_of_mem (List.mem_filterMap.mpr ⟨e, member, given⟩)
    rw [numbered, ← mine, zero, List.mem_range'_1] at listed
    exact absurd listed.1 (by decide)
  · intro none e member v told
    obtain ⟨f, g, given, read, mine, belongs⟩ := ((sound e member).2 v).mp told
    have other : g.id ≠ 0 := fun zero => none e member g read zero v told
    exact ⟨f, g, given, read, mine.resolve_right other, belongs⟩

def scripted : Peer (List ResponseFrame) where
  react
    | [], _ => ([], [], true)
    | g :: rest, _ => (rest, Frame.encode (ResponseFrame.codec.encode g), false)

theorem scripted_react (g : ResponseFrame) (rest : List ResponseFrame) (b : Bytes) :
    scripted.react (g :: rest) b = (rest, Frame.encode (ResponseFrame.codec.encode g), false) := rfl

theorem connect_scripted (rest : List ResponseFrame) : ∃ stream,
    connect .ready (.four [127, 0, 0, 1] 5000) scripted "p" (⟨1, .authenticated "s"⟩ :: rest) =
      (some (.ok ⟨stream, 2, "s"⟩), rest) ∧ stream.Idle Settings.usualFrameLimit := by
  have fits : (RequestFrame.codec.encode ⟨1, .auth "p"⟩).length ≤ Settings.usualFrameLimit := by decide +kernel
  have short : (ResponseFrame.codec.encode ⟨1, .authenticated "s"⟩).length ≤ Settings.usualFrameLimit := by
    decide +kernel
  have answered := scripted_react ⟨1, .authenticated "s"⟩ rest
  obtain ⟨stream, asked, idle⟩ := ask_answered (c := fresh) (Stream.idle_fresh _) fits (answered _) trivial short
  refine ⟨stream, ?_, idle⟩
  simp only [connect, Network.ready, asked]
  rfl

theorem successes_own_iff_ping : ∃ c t,
    connect .ready (.four [127, 0, 0, 1] 5000) scripted "p" [⟨1, .authenticated "s"⟩, ⟨2, .pong⟩] = (some (.ok c), t) ∧
      [Call.ping].length < 2 ^ 64 - 2 ∧ ∀ e ∈ history scripted (c, t) [.ping], e.Sent ∧ e.OwnOrZero := by
  obtain ⟨stream, connected, -⟩ := connect_scripted [⟨2, .pong⟩]
  have few : [Call.ping].length < 2 ^ 64 - 2 := by decide
  obtain ⟨-, -, -, -, sound, -⟩ := successes_own_iff connected few
  exact ⟨_, _, connected, few, sound⟩

/-- A frame with the number 0 that no request has asked for is taken as the answer to the request with the number 2. -/
theorem unnumbered_pong_accepted : ∃ c t,
    connect .ready (.four [127, 0, 0, 1] 5000) scripted "p" [⟨1, .authenticated "s"⟩, ⟨0, .pong⟩] = (some (.ok c), t) ∧
      ∃ e, history scripted (c, t) [.ping] = [e] ∧ e.told = some (.ok .done) ∧ e.handed = some ⟨2, .ping⟩ ∧
        e.response? = some ⟨0, .pong⟩ ∧ ¬e.Own := by
  obtain ⟨stream, connected, idle⟩ := connect_scripted [⟨0, .pong⟩]
  have fits : (RequestFrame.codec.encode ⟨2, .ping⟩).length ≤ Settings.usualFrameLimit := by decide +kernel
  have short : (ResponseFrame.codec.encode ⟨0, .pong⟩).length ≤ Settings.usualFrameLimit := by decide +kernel
  have answered := scripted_react ⟨0, .pong⟩ []
  let c : Client := ⟨stream, 2, "s"⟩
  obtain ⟨d, e, after, sent, delivered, received, -, -⟩ :=
    receive_answered (c := c) idle fits (answered _) trivial short
  obtain ⟨asked, told, -⟩ := ask_answered (c := c) idle fits (answered _) trivial short
  obtain ⟨body, taken, read⟩ := Stream.receive_eq_message.mp (congrArg Prod.fst received)
  let x : Exchange := ⟨.ping, some ⟨2, .ping⟩, d.stream.outlet.sent,
    (scripted.react [⟨0, .pong⟩] d.stream.outlet.sent).2.1, some body, some (.ok .done)⟩
  have seen : history scripted (c, [⟨0, .pong⟩]) [.ping] = [x] := by
    simp only [history, runOn, exchange, call, Call.request, told, sent, delivered, taken]
    rfl
  have response : x.response? = some ⟨0, .pong⟩ := by
    simp only [Exchange.response?, x, Option.bind_some, read]
    rfl
  refine ⟨c, _, connected, x, seen, rfl, rfl, response, fun own => ?_⟩
  obtain ⟨f, g, given, same, mine, -⟩ := own .done rfl
  cases given
  cases response.symm.trans same
  exact absurd mine (by decide)

end Client

end Custody
