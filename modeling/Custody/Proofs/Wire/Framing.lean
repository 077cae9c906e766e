import Custody.Proofs.Run
import Custody.Proofs.Wire.Message
import Custody.Proofs.Wire.Stream

/-!
Rows of messages over a stream. What the sender accepts is what the receiver is told, in order, however the bytes
arrive and whenever it asks; and a body that is no message costs one complaint and nothing else.
-/

namespace Custody

/-- What a frame may carry: a message, or a body that is none, with what is wrong with it. -/
inductive Parcel {α : Type} (c : Json.Codec α) where
  | message (a : α)
  | malformed (body : Bytes) (fault : Fault) (refused : c.decode body = .error fault)

namespace Parcel

variable {α : Type} {c : Json.Codec α}

def body : Parcel c → Bytes
  | message a => c.encode a
  | malformed body _ _ => body

def message? : Parcel c → Option α
  | message a => some a
  | malformed _ _ _ => none

def told : Parcel c → Receipt α
  | message a => .message a
  | malformed _ fault _ => .failed (.protocol ("malformed message: " ++ fault.message))

def wire (row : List (Parcel c)) : Bytes := row.flatMap fun p => Frame.encode p.body

theorem wire_append (first later : List (Parcel c)) : wire (first ++ later) = wire first ++ wire later :=
  List.flatMap_append

theorem wire_singleton (p : Parcel c) : wire [p] = Frame.encode p.body := List.append_nil _

def Fits (limit : Nat) (p : Parcel c) : Prop := p.body.length ≤ limit ∧ p.body.length < Frame.most

def Readable : Parcel c → Prop
  | message a => c.decode (c.encode a) = .ok a
  | malformed _ _ _ => True

end Parcel

/-- What happens at the receiving end: bytes come, or the next message is asked for. -/
inductive Arrival where
  | bytes (b : Bytes)
  | ask

def Arrival.come : Arrival → Bytes
  | bytes b => b
  | ask => []

namespace Stream

variable {α : Type} {c : Json.Codec α} {s : Stream} {row : List (Parcel c)} {p : Parcel c} {missing : Bytes}
  {closed : Bool}

/-- One arrival at the receiving end. An ask to which there is no answer yet gives nothing. -/
def attend (c : Json.Codec α) (s : Stream) : Arrival → List (Receipt α) × Stream
  | .bytes b => ([], s.feed b)
  | .ask =>
    match s.receive c with
    | (.pending, s) => ([], s)
    | (r, s) => ([r], s)

def receipts (c : Json.Codec α) (s : Stream) (arrivals : List Arrival) : List (Receipt α) :=
  (runOn (attend c) s arrivals).1.flatten

def attended (c : Json.Codec α) (s : Stream) (arrivals : List Arrival) : Stream := (runOn (attend c) s arrivals).2

theorem receipts_append (s : Stream) (first later : List Arrival) :
    receipts c s (first ++ later) = receipts c s first ++ receipts c (attended c s first) later := by
  rw [receipts, runOn_append_given, List.flatten_append]
  rfl

/-- Some parcels are still to be received: their bytes have come and wait, but for those that are missing. -/
structure Awaits (row : List (Parcel c)) (missing : Bytes) (closed : Bool) (s : Stream) : Prop where
  sound : s.inlet.Sound s.limit
  wire : s.inlet.ahead ++ missing = Parcel.wire row
  fits : ∀ p ∈ row, p.Fits s.limit ∧ p.Readable
  closed : s.inlet.closed = closed

theorem Awaits.feed {b : Bytes} (awaits : Awaits row (b ++ missing) closed s) :
    Awaits row missing closed (s.feed b) := by
  obtain ⟨sound, wire, fits, open_⟩ := awaits
  refine ⟨sound.feed b, ?_, fits, open_⟩
  rw [← wire, ← List.append_assoc]
  exact congrArg (· ++ missing) (Inlet.ahead_feed s.inlet b)

theorem Awaits.finish (awaits : Awaits row missing closed s) : Awaits row missing true s.finish :=
  ⟨awaits.sound.finish, awaits.wire, awaits.fits, rfl⟩

theorem Awaits.next (awaits : Awaits (p :: row) missing closed s)
    (whole : (Frame.encode p.body).length ≤ s.inlet.ahead.length) :
    ∃ t, s.attend c .ask = ([p.told], t) ∧ Awaits row missing closed t := by
  obtain ⟨sound, wire, fits, open_⟩ := awaits
  obtain ⟨⟨⟨short, small⟩, readable⟩, others⟩ := List.forall_mem_cons.mp fits
  have front := Frame.front_begun short small wire
  rw [if_pos whole] at front
  obtain ⟨j, received, left, ahead, kept⟩ := Inlet.receive_frame sound front
  refine ⟨{ s with inlet := j }, ?_, left, ?_, others, kept.trans open_⟩
  · cases p with
    | message a =>
      have readable : c.decode (c.encode a) = .ok a := readable
      simp only [attend, Stream.receive, received, Parcel.body, readable, Parcel.told]
    | malformed body fault refused =>
      simp only [attend, Stream.receive, received, Parcel.body, refused, Parcel.told, Json.Wording.plain]
  · obtain ⟨shape, -⟩ := Frame.front_eq_frame.mp front
    rw [shape, List.append_assoc] at wire
    exact (congrArg (· ++ missing) ahead).trans (List.append_cancel_left wire)

theorem Awaits.short (awaits : Awaits row missing closed s)
    (part : ∀ p ∈ row.head?, s.inlet.ahead.length < (Frame.encode p.body).length) :
    Frame.front s.limit s.inlet.ahead = .short := by
  obtain ⟨-, wire, fits, -⟩ := awaits
  cases row with
  | nil =>
    rw [(List.append_eq_nil_iff.mp wire).1]
    exact Frame.front_short (Nat.succ_pos 3)
  | cons p row =>
    obtain ⟨⟨⟨short, small⟩, -⟩, -⟩ := List.forall_mem_cons.mp fits
    exact (Frame.front_begun short small wire).trans (if_neg (Nat.not_le.mpr (part p rfl)))

theorem Awaits.wait (awaits : Awaits row missing false s)
    (part : ∀ p ∈ row.head?, s.inlet.ahead.length < (Frame.encode p.body).length) :
    ∃ t, s.attend c .ask = ([], t) ∧ Awaits row missing false t ∧ t.inlet.ahead = s.inlet.ahead := by
  have front := awaits.short part
  obtain ⟨sound, wire, fits, open_⟩ := awaits
  have waits := Inlet.receive_short sound front
  rw [if_neg (by simp [open_])] at waits
  obtain ⟨j, received, left, same, still⟩ := waits
  refine ⟨{ s with inlet := j }, ?_, ⟨left, ?_, fits, still⟩, same⟩
  · simp only [attend, Stream.receive, received]
  · exact (congrArg (· ++ missing) same).trans wire

theorem Awaits.run {arrivals : List Arrival} (awaits : Awaits row (arrivals.flatMap Arrival.come ++ missing) false s) :
    ∃ done left, row = done ++ left ∧ receipts c s arrivals = done.map Parcel.told ∧
      Awaits left missing false (attended c s arrivals) := by
  induction arrivals generalizing row s with
  | nil => exact ⟨[], row, rfl, rfl, awaits⟩
  | cons arrival arrivals ih =>
    -- an arrival tells nothing, or the first parcel
    have quiet {t : Stream} (same : s.attend c arrival = ([], t))
        (after : Awaits row (arrivals.flatMap Arrival.come ++ missing) false t) :
        ∃ done left, row = done ++ left ∧ receipts c s (arrival :: arrivals) = done.map Parcel.told ∧
          Awaits left missing false (attended c s (arrival :: arrivals)) := by
      obtain ⟨done, left, split, told, rest⟩ := ih after
      refine ⟨done, left, split, ?_, ?_⟩
      · simpa only [receipts, runOn, same, List.flatten_cons, List.nil_append] using told
      · simpa only [attended, runOn, same] using rest
    cases arrival with
    | bytes b =>
      rw [List.flatMap_cons, List.append_assoc] at awaits
      exact quiet rfl awaits.feed
    | ask =>
      cases row with
      | nil =>
        obtain ⟨t, same, after, -⟩ := awaits.wait nofun
        exact quiet same after
      | cons p row =>
        by_cases whole : (Frame.encode p.body).length ≤ s.inlet.ahead.length
        · obtain ⟨t, same, after⟩ := awaits.next whole
          obtain ⟨done, left, split, told, rest⟩ := ih after
          refine ⟨p :: done, left, congrArg (List.cons p) split, ?_, ?_⟩
          · simp only [receipts, runOn, same, List.flatten_cons, List.map_cons] at told ⊢
            exact congrArg (List.cons p.told) told
          · simpa only [attended, runOn, same] using rest
        · have part : ∀ q ∈ (p :: row).head?, s.inlet.ahead.length < (Frame.encode q.body).length := by
            rintro q same
            cases same
            exact Nat.not_le.mp whole
          obtain ⟨t, same, after, -⟩ := awaits.wait part
          exact quiet same after

theorem receipts_over (past : s.inlet.Over) (n : Nat) :
    receipts c s (List.replicate n .ask) = List.replicate n .finished := by
  have same : s.attend c .ask = ([.finished], s) := by
    simp only [attend, Stream.receive, Inlet.receive_over past]
  induction n with
  | zero => rfl
  | succ n ih =>
    simp only [receipts, List.replicate_succ, runOn, same, List.flatten_cons] at ih ⊢
    exact congrArg (List.cons _) ih

theorem Awaits.drain (awaits : Awaits row [] true s) (n : Nat) :
    receipts c s (List.replicate n .ask) =
      (row.map Parcel.told).take n ++ List.replicate (n - row.length) .finished := by
  induction n generalizing row s with
  | zero => simp [receipts, runOn]
  | succ n ih =>
    cases row with
    | nil =>
      obtain ⟨sound, wire, -, closed⟩ := awaits
      obtain ⟨j, received, past⟩ := Inlet.receive_end sound closed (List.append_eq_nil_iff.mp wire).1
      have same : s.attend c .ask = ([.finished], { s with inlet := j }) := by
        simp only [attend, Stream.receive, received]
      have others := receipts_over (c := c) (s := { s with inlet := j }) past n
      simp only [receipts, List.replicate_succ, runOn, same, List.flatten_cons] at others ⊢
      exact congrArg (List.cons _) others
    | cons p row =>
      have whole : (Frame.encode p.body).length ≤ s.inlet.ahead.length := by
        have wire := awaits.wire
        rw [List.append_nil] at wire
        rw [wire, Parcel.wire, List.flatMap_cons, List.length_append]
        exact Nat.le_add_right _ _
      obtain ⟨t, same, after⟩ := awaits.next whole
      have others := ih after
      simp only [receipts, List.replicate_succ, runOn, same, List.flatten_cons] at others ⊢
      rw [others, List.length_cons, Nat.add_sub_add_right]
      rfl

def sendAll (c : Json.Codec α) (s : Stream) (messages : List α) : List (Except Failure Unit) × Stream :=
  runOn (fun s a => s.send c a) s messages

def admitted (c : Json.Codec α) (limit : Nat) (messages : List α) : List α :=
  messages.filter fun a => (c.encode a).length ≤ limit

theorem sendAll_eq (clear : s.outlet.Clear) (messages : List α) :
    let frames := (admitted c s.limit messages).flatMap fun a => Frame.encode (c.encode a)
    sendAll c s messages =
      (messages.map fun a =>
        if (c.encode a).length ≤ s.limit then .ok () else .error (.io (Frame.tooBig .invalidInput)),
      { s with outlet := { s.outlet with sent := s.outlet.sent ++ frames } }) := by
  induction messages generalizing s with
  | nil => simp [sendAll, runOn, admitted]
  | cons a messages ih =>
    simp only [sendAll, admitted] at ih ⊢
    by_cases fits : (c.encode a).length ≤ s.limit
    · rw [runOn, send_accepted clear fits]
      simp only [ih (s := { s with outlet := _ }) (clear.sent _)]
      simp [fits]
    · rw [runOn, send_refused clear (Nat.not_le.mp fits)]
      simp only [ih clear]
      simp [fits]

/-- What a receiver is told of a row of parcels, however their bytes arrive. -/
def Delivers (c : Json.Codec α) (limit : Nat) (row : List (Parcel c)) : Prop :=
  ∀ arrivals : List Arrival, arrivals.flatMap Arrival.come <+: Parcel.wire row →
    ∃ done left, row = done ++ left ∧ receipts c (.fresh limit) arrivals = done.map Parcel.told ∧
      -- the next one as soon as it has come whole
      (∀ p rest, left = p :: rest → Parcel.wire (done ++ [p]) <+: arrivals.flatMap Arrival.come →
        receipts c (.fresh limit) (arrivals ++ [.ask]) = (done ++ [p]).map Parcel.told) ∧
      -- all others after the last byte, and then the end
      (arrivals.flatMap Arrival.come = Parcel.wire row → ∀ n,
        receipts c (attended c (.fresh limit) arrivals).finish (.replicate n .ask) =
          (left.map Parcel.told).take n ++ .replicate (n - left.length) .finished)

theorem delivers {limit : Nat} (fits : ∀ p ∈ row, p.Fits limit ∧ p.Readable) : Delivers c limit row := by
  rintro arrivals ⟨missing, whole⟩
  have start : (fresh limit).Awaits row (arrivals.flatMap Arrival.come ++ missing) false :=
    ⟨Inlet.sound_fresh, whole, fits, rfl⟩
  obtain ⟨done, left, split, told, rest⟩ := start.run
  refine ⟨done, left, split, told, ?_, ?_⟩
  · rintro p others rfl come
    have here :
        arrivals.flatMap Arrival.come = Parcel.wire done ++ (attended c (fresh limit) arrivals).inlet.ahead := by
      rw [split, Parcel.wire_append, ← rest.wire, ← List.append_assoc] at whole
      exact List.append_cancel_right whole
    have long := come.length_le
    rw [here, Parcel.wire_append, List.length_append, List.length_append, Parcel.wire_singleton] at long
    obtain ⟨t, same, -⟩ := rest.next (by omega)
    rw [receipts_append, told, List.map_append]
    simp only [receipts, runOn, same]
    rfl
  · intro all n
    rw [all] at whole
    cases List.append_right_eq_self.mp whole
    exact rest.finish.drain n

/-- A row of messages goes through a stream, under one limit at the sender and another at the receiver. A message is
refused exactly if it is too long, and leaves no trace; the receiver is told the others, whatever malformed bodies
stand between them. -/
def Carries (c : Json.Codec α) (limit peer : Nat) (messages : List α) : Prop :=
  let (results, sender) := sendAll c (.fresh limit) messages
  let accepted := admitted c limit messages
  (results = messages.map fun a =>
      if (c.encode a).length ≤ limit then .ok () else .error (.io (Frame.tooBig .invalidInput))) ∧
    sender = (sendAll c (.fresh limit) accepted).2 ∧
    sender.outlet.sent = Parcel.wire (c := c) (accepted.map .message) ∧
    ∀ row : List (Parcel c), row.filterMap Parcel.message? = accepted →
      (∀ p ∈ row, p.message? = none → p.Fits peer) → Delivers c peer row

theorem carries {limit peer : Nat} {messages : List α} (small : limit < Frame.most) (room : limit ≤ peer)
    (readable : ∀ a ∈ messages, c.decode (c.encode a) = .ok a) : Carries c limit peer messages := by
  have sent := sendAll_eq (c := c) (s := .fresh limit) Outlet.clear_fresh
  have again : admitted c limit (admitted c limit messages) = admitted c limit messages := by
    simp [admitted]
  simp only [Carries, sent]
  refine ⟨rfl, ?_, ?_, ?_⟩
  · simp only [fresh, again]
  · simp [fresh, Outlet.fresh, Parcel.wire, Parcel.body, List.flatMap_map]
  · intro row same malformed
    apply delivers
    intro p member
    cases p with
    | malformed body fault refused => exact ⟨malformed _ member rfl, trivial⟩
    | message a =>
      have accepted : a ∈ admitted c limit messages := same ▸ List.mem_filterMap.mpr ⟨_, member, rfl⟩
      obtain ⟨given, short⟩ := List.mem_filter.mp accepted
      have short : (c.encode a).length ≤ limit := by simpa using short
      exact ⟨⟨Nat.le_trans short room, Nat.lt_of_le_of_lt short small⟩, readable a given⟩

theorem carries_frames {limit peer : Nat} (small : limit < Frame.most) (room : limit ≤ peer) :
    (∀ messages, Carries RequestFrame.codec limit peer messages) ∧
      ∀ messages : List ResponseFrame, (∀ f ∈ messages, f.response.Writable) →
        Carries ResponseFrame.codec limit peer messages := by
  constructor
  · intro messages
    exact carries small room fun f _ => (RequestFrame.codec_faithful f).decode_encode
  · intro messages writable
    exact carries small room fun f member => (ResponseFrame.codec_faithful (writable f member)).decode_encode

def threeRequests : List RequestFrame := [⟨1, .ping⟩, ⟨2, .auth "password"⟩, ⟨3, .ping⟩]

theorem carries_frames_three :
    threeRequests.map (fun f => decide ((RequestFrame.codec.encode f).length ≤ 34)) = [true, false, true] ∧
      34 < Frame.most ∧ 34 ≤ 64 ∧ Carries RequestFrame.codec 34 64 threeRequests := by
  have small : 34 < Frame.most := by decide
  exact ⟨by decide +kernel, small, by decide, (carries_frames small (by decide)).1 threeRequests⟩

end Stream

end Custody
