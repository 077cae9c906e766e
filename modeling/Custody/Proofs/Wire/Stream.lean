import Custody.Proofs.Wire.Frame
import Custody.Wire.Stream

/-!
Streams seen as rows of bytes. However bytes arrive and are taken in, the next receipt depends only on what
stands in front of all that has not been received yet.
-/

namespace Custody

namespace Intake

def ahead (p : Intake) : Bytes :=
  match p.due with
  | some n => Bytes.bigEndian Frame.headLength n ++ p.buffer
  | none => p.buffer

def Sound (limit : Nat) (p : Intake) : Prop := ∀ n, p.due = some n → n ≤ limit ∧ n < Frame.most

def Lacks (p : Intake) : Prop :=
  match p.due with
  | some n => p.buffer.length < n
  | none => p.buffer.length < Frame.headLength

variable {limit : Nat} {p : Intake}

theorem buffer_of_ahead (none : p.ahead = []) : p.buffer = [] := by
  unfold ahead at none
  cases due : p.due with
  | some n =>
    rw [due] at none
    exact (List.append_eq_nil_iff.mp none).2
  | none =>
    rw [due] at none
    exact none

theorem head_of_lacks (lacks : p.Lacks) : p.head limit = .ok p := by
  unfold Lacks at lacks
  refine if_pos ?_
  cases due : p.due with
  | some n => rfl
  | none =>
    rw [due] at lacks
    simp [lacks]

theorem body?_of_lacks (lacks : p.Lacks) : p.body? = none := by
  unfold Lacks at lacks
  unfold body?
  cases due : p.due with
  | some n =>
    rw [due] at lacks
    simp [lacks]
  | none => rfl

theorem front_of_lacks (sound : p.Sound limit) (lacks : p.Lacks) : Frame.front limit p.ahead = .short := by
  unfold Lacks at lacks
  unfold ahead
  cases due : p.due with
  | some n =>
    rw [due] at lacks
    obtain ⟨fits, small⟩ := sound n due
    rw [Frame.front_head small, if_neg (Nat.not_lt.mpr fits), if_pos lacks]
  | none =>
    rw [due] at lacks
    exact Frame.front_short lacks

theorem head_eq (sound : p.Sound limit) :
    (∃ q, p.head limit = .ok q ∧ q.Sound limit ∧ q.ahead = p.ahead ∧ (q.Lacks ∨ q.body?.isSome)) ∨
      p.head limit = .error (Frame.tooBig .invalidData) ∧ Frame.front limit p.ahead = .tooBig := by
  cases due : p.due with
  | some n =>
    refine .inl ⟨p, if_pos (by simp [due]), sound, rfl, ?_⟩
    by_cases come : n ≤ p.buffer.length
    · exact .inr (by simp [body?, due, come])
    · exact .inl (by simpa [Lacks, due] using come)
  | none =>
    by_cases short : p.buffer.length < Frame.headLength
    · have lacks : p.Lacks := by simpa [Lacks, due] using short
      exact .inl ⟨p, head_of_lacks lacks, sound, rfl, .inl lacks⟩
    · obtain ⟨n, rest, small, shape⟩ := Frame.exists_head short
      have size := Bytes.length_bigEndian Frame.headLength n
      have told : Bytes.ofBigEndian (Bytes.bigEndian Frame.headLength n) = n :=
        Bytes.ofBigEndian_bigEndian small
      have held : p.ahead = Bytes.bigEndian Frame.headLength n ++ rest := by rw [ahead, due, shape]
      unfold head
      rw [if_neg (by simp [due, short]), shape, List.take_left' size, List.drop_left' size, told]
      by_cases fits : n ≤ limit
      · rw [if_pos fits]
        refine .inl ⟨_, rfl, ?_, held.symm, ?_⟩
        · intro m same
          cases same
          exact ⟨fits, small⟩
        · by_cases come : n ≤ rest.length
          · exact .inr (by simp [body?, come])
          · exact .inl (Nat.not_le.mp come)
      · rw [if_neg fits]
        refine .inr ⟨rfl, ?_⟩
        rw [held, Frame.front_head small, if_pos (Nat.not_le.mp fits)]

theorem front_of_body? {q : Intake} {body : Bytes} (sound : p.Sound limit) (taken : p.body? = some (body, q)) :
    Frame.front limit p.ahead = .frame body q.ahead ∧ q.Sound limit := by
  unfold body? at taken
  cases due : p.due with
  | none =>
    rw [due] at taken
    cases taken
  | some n =>
    rw [due] at taken
    simp only at taken
    split at taken
    · rename_i come
      cases taken
      obtain ⟨fits, small⟩ := sound n due
      constructor
      · rw [ahead, due, Frame.front_head small, if_neg (Nat.not_lt.mpr fits), if_neg (Nat.not_lt.mpr come)]
        rfl
      · intro m none
        cases none
    · cases taken

end Intake

def Receipt.frame : Receipt Bytes → Bytes
  | .message body => Frame.encode body
  | _ => []

namespace Inlet

def ahead (i : Inlet) : Bytes := i.intake.ahead ++ i.waiting

/-- No trouble so far; and where there is nothing to be looked for, nothing would be found. -/
structure Sound (limit : Nat) (i : Inlet) : Prop where
  intake : i.intake.Sound limit
  idle : i.ready = false → i.intake.Lacks
  untroubled : i.troubled = false
  unended : i.ended = false

structure Over (i : Inlet) : Prop where
  waiting : i.waiting = []
  closed : i.closed = true
  asleep : i.ready = false
  ended : i.ended = true
  untroubled : i.troubled = false

/-- What is received, and what is left, by what stands in front. -/
inductive Found (limit : Nat) (i : Inlet) : Receipt Bytes → Inlet → Prop where
  | message {body : Bytes} {j : Inlet} (front : Frame.front limit i.ahead = .frame body j.ahead)
      (sound : j.Sound limit) (closed : j.closed = i.closed) : Found limit i (.message body) j
  | tooBig {j : Inlet} (front : Frame.front limit i.ahead = .tooBig) :
      Found limit i (.failed (.io (Frame.tooBig .invalidData))) j
  | pending {j : Inlet} (front : Frame.front limit i.ahead = .short) (open_ : i.closed = false)
      (sound : j.Sound limit) (ahead : j.ahead = i.ahead) (closed : j.closed = i.closed) :
      Found limit i .pending j
  | finished {j : Inlet} (front : Frame.front limit i.ahead = .short) (closed : i.closed = true) (past : j.Over) :
      Found limit i .finished j
  | cutOff {j : Inlet} (front : Frame.front limit i.ahead = .short) (closed : i.closed = true)
      (some : i.ahead ≠ []) : Found limit i (.failed (.io Frame.cutOff)) j

variable {limit : Nat} {i j : Inlet} {r : Receipt Bytes}

theorem sound_fresh : Sound limit fresh := ⟨nofun, fun _ => Nat.succ_pos 3, rfl, rfl⟩

theorem ahead_feed (i : Inlet) (b : Bytes) : (i.feed b).ahead = i.ahead ++ b :=
  (List.append_assoc ..).symm

theorem Sound.feed (sound : i.Sound limit) (b : Bytes) : (i.feed b).Sound limit :=
  ⟨sound.intake, sound.idle, sound.untroubled, sound.unended⟩

theorem Sound.finish (sound : i.Sound limit) : i.finish.Sound limit :=
  ⟨sound.intake, sound.idle, sound.untroubled, sound.unended⟩

theorem Sound.mono {more : Nat} (sound : i.Sound limit) (le : limit ≤ more) : i.Sound more :=
  ⟨fun n due => ⟨Nat.le_trans (sound.intake n due).1 le, (sound.intake n due).2⟩, sound.idle,
    sound.untroubled, sound.unended⟩

theorem ahead_takeIn (i : Inlet) : i.takeIn.ahead = i.ahead := by
  unfold ahead takeIn Intake.takeIn Intake.ahead
  cases due : i.intake.due <;> simp

theorem Sound.takeIn (sound : i.Sound limit) : i.takeIn.Sound limit :=
  ⟨sound.intake, nofun, sound.untroubled, rfl⟩

theorem look_some (sound : i.Sound limit) (looked : i.look limit = (some r, j)) : i.Found limit r j := by
  unfold look at looked
  split at looked
  · cases looked
  · rename_i awake
    have awake : ¬i.ready = false := by simpa using awake
    obtain ⟨p, accepted, kept, same, -⟩ | ⟨refused, big⟩ := Intake.head_eq sound.intake
    · rw [accepted] at looked
      simp only [sound.unended] at looked
      split at looked
      · rename_i body rest taken
        cases looked
        obtain ⟨front, left⟩ := Intake.front_of_body? kept taken
        rw [same] at front
        refine .message (Frame.front_frame_append front i.waiting) ?_ rfl
        exact ⟨left, fun asleep => absurd asleep awake, sound.untroubled, rfl⟩
      · cases looked
    · rw [refused] at looked
      cases looked
      exact .tooBig (Frame.front_tooBig_append big i.waiting)

theorem look_none (sound : i.Sound limit) (looked : i.look limit = (none, j)) :
    j.Sound limit ∧ j.ready = false ∧ j.ahead = i.ahead ∧ j.closed = i.closed := by
  unfold look at looked
  split at looked
  · rename_i asleep
    cases looked
    exact ⟨sound, by simpa using asleep, rfl, rfl⟩
  · obtain ⟨p, accepted, kept, same, come⟩ | ⟨refused, -⟩ := Intake.head_eq sound.intake
    · rw [accepted] at looked
      simp only [sound.unended] at looked
      split at looked
      · cases looked
      · rename_i missing
        cases looked
        have lacks : p.Lacks := come.resolve_right (by simp [missing])
        refine ⟨⟨kept, fun _ => lacks, sound.untroubled, rfl⟩, rfl, ?_, rfl⟩
        exact congrArg (· ++ i.waiting) same
    · rw [refused] at looked
      cases looked

theorem front_of_asleep (sound : i.Sound limit) (asleep : i.ready = false) (none : i.waiting = []) :
    Frame.front limit i.ahead = .short := by
  rw [ahead, none, List.append_nil]
  exact Intake.front_of_lacks sound.intake (sound.idle asleep)

theorem look_takeEnd (sound : i.Sound limit) (asleep : i.ready = false) (empty : i.waiting = []) :
    if i.closed then ∃ j, i.takeEnd.look limit = (some .finished, j) ∧ j.Over ∨
        i.takeEnd.look limit = (some (.failed (.io Frame.cutOff)), j) ∧ i.ahead ≠ []
    else i.takeEnd.look limit = (none, i) := by
  have lacks := sound.idle asleep
  cases closed : i.closed with
  | false => simp [takeEnd, closed, look, asleep]
  | true =>
    have woken : i.takeEnd = { i with ready := true, ended := true } := by
      simp [takeEnd, closed, sound.unended]
    rw [woken, if_pos rfl]
    simp only [look, Intake.head_of_lacks lacks, Intake.body?_of_lacks lacks, Bool.not_true,
      Bool.false_eq_true, if_false]
    split
    · exact ⟨_, .inl ⟨rfl, empty, closed, rfl, rfl, sound.untroubled⟩⟩
    · rename_i held
      refine ⟨_, .inr ⟨rfl, fun nothing => held ?_⟩⟩
      exact Intake.buffer_of_ahead (List.append_eq_nil_iff.mp nothing).1

theorem Found.congr (same : j.ahead = i.ahead) (closed : j.closed = i.closed) {k : Inlet}
    (found : j.Found limit r k) : i.Found limit r k := by
  cases found with
  | message front sound kept => exact .message (same ▸ front) sound (kept.trans closed)
  | tooBig front => exact .tooBig (same ▸ front)
  | pending front open_ sound left kept =>
    exact .pending (same ▸ front) (closed ▸ open_) sound (left.trans same) (kept.trans closed)
  | finished front ending past => exact .finished (same ▸ front) (closed ▸ ending) past
  | cutOff front ending some => exact .cutOff (same ▸ front) (closed ▸ ending) (same ▸ some)

theorem seek_found (sound : i.Sound limit) : i.Found limit (i.seek limit).1 (i.seek limit).2 := by
  fun_induction seek limit i with
  | case1 i r j looked => exact look_some sound looked
  | case2 i j looked none r k found =>
    obtain ⟨left, asleep, same, closed⟩ := look_none sound looked
    have short := front_of_asleep left asleep none
    have ended := look_takeEnd left asleep none
    refine Found.congr same closed ?_
    split at ended
    · rename_i ending
      obtain ⟨m, ⟨finished, past⟩ | ⟨cut, some⟩⟩ := ended
      · rw [finished] at found
        cases found
        exact .finished short ending past
      · rw [cut] at found
        cases found
        exact .cutOff short ending some
    · rw [ended] at found
      cases found
  | case3 i j looked none k nothing =>
    obtain ⟨left, asleep, same, closed⟩ := look_none sound looked
    have short := front_of_asleep left asleep none
    have ended := look_takeEnd left asleep none
    refine Found.congr same closed ?_
    split at ended
    · obtain ⟨m, ⟨finished, -⟩ | ⟨cut, -⟩⟩ := ended
      · rw [finished] at nothing
        cases nothing
      · rw [cut] at nothing
        cases nothing
    · rename_i ending
      rw [ended] at nothing
      cases nothing
      have ending : j.closed = false := by simpa using ending
      simp only [rest, ending, Bool.false_eq_true, if_false]
      exact .pending short ending left rfl rfl
  | case4 i j looked more _ ih =>
    obtain ⟨left, -, same, closed⟩ := look_none sound looked
    have found := ih left.takeIn
    exact found.congr ((ahead_takeIn j).trans same) closed

theorem receive_found (sound : i.Sound limit) : i.Found limit (i.receive limit).1 (i.receive limit).2 := by
  rw [receive, if_neg (by simp [sound.untroubled])]
  exact seek_found sound

theorem receive_frame {body rest : Bytes} (sound : i.Sound limit)
    (front : Frame.front limit i.ahead = .frame body rest) :
    ∃ j, i.receive limit = (.message body, j) ∧ j.Sound limit ∧ j.ahead = rest ∧ j.closed = i.closed := by
  have found := receive_found sound
  cases received : i.receive limit with
  | mk r j =>
    rw [received] at found
    cases found with
    | message first left closed =>
      rw [front] at first
      cases first
      exact ⟨j, rfl, left, rfl, closed⟩
    | tooBig other | pending other | finished other | cutOff other => cases front.symm.trans other

theorem receive_tooBig (sound : i.Sound limit) (front : Frame.front limit i.ahead = .tooBig) :
    ∃ j, i.receive limit = (.failed (.io (Frame.tooBig .invalidData)), j) := by
  have found := receive_found sound
  cases received : i.receive limit with
  | mk r j =>
    rw [received] at found
    cases found with
    | tooBig => exact ⟨j, rfl⟩
    | message other | pending other | finished other | cutOff other => cases front.symm.trans other

theorem receive_short (sound : i.Sound limit) (front : Frame.front limit i.ahead = .short) :
    if i.closed then
      ∃ j, i.receive limit = (.finished, j) ∨ i.receive limit = (.failed (.io Frame.cutOff), j)
    else ∃ j, i.receive limit = (.pending, j) ∧ j.Sound limit ∧ j.ahead = i.ahead ∧ j.closed = false := by
  have found := receive_found sound
  cases received : i.receive limit with
  | mk r j =>
    rw [received] at found
    cases found with
    | pending _ open_ left same closed =>
      rw [if_neg (by simp [open_])]
      exact ⟨j, rfl, left, same, closed.trans open_⟩
    | finished _ closed =>
      rw [if_pos closed]
      exact ⟨j, .inl rfl⟩
    | cutOff _ closed =>
      rw [if_pos closed]
      exact ⟨j, .inr rfl⟩
    | message other | tooBig other => cases front.symm.trans other

theorem receive_end (sound : i.Sound limit) (closed : i.closed = true) (nothing : i.ahead = []) :
    ∃ j, i.receive limit = (.finished, j) ∧ j.Over := by
  have front : Frame.front limit i.ahead = .short := nothing ▸ Frame.front_short (Nat.succ_pos 3)
  have found := receive_found sound
  cases received : i.receive limit with
  | mk r j =>
    rw [received] at found
    cases found with
    | finished _ _ past => exact ⟨j, rfl, past⟩
    | cutOff _ _ some => exact absurd nothing some
    | pending _ open_ => exact absurd (closed.symm.trans open_) (by decide)
    | message other | tooBig other => cases front.symm.trans other

theorem receive_over (past : i.Over) : i.receive limit = (.finished, i) := by
  obtain ⟨waiting, closed, asleep, ended, untroubled⟩ := past
  have idle : i.look limit = (none, i) := by simp [look, asleep]
  have same : i.takeEnd = i := by simp [takeEnd, ended]
  rw [receive, if_neg (by simp [untroubled])]
  fun_cases seek limit i with
  | case1 r j looked => cases idle.symm.trans looked
  | case2 j looked empty r k found =>
    cases idle.symm.trans looked
    rw [same, idle] at found
    cases found
  | case3 j looked empty k nothing =>
    cases idle.symm.trans looked
    rw [same, idle] at nothing
    cases nothing
    simp only [rest, closed, if_true]
  | case4 j looked more =>
    cases idle.symm.trans looked
    exact absurd waiting more

theorem look_ahead {r : Option (Receipt Bytes)} (sound : i.intake.Sound limit) (looked : i.look limit = (r, j)) :
    j.intake.Sound limit ∧ i.ahead = (r.map Receipt.frame).getD [] ++ j.ahead := by
  unfold look at looked
  split at looked
  · cases looked
    exact ⟨sound, rfl⟩
  · obtain ⟨p, accepted, kept, same, -⟩ | ⟨refused, -⟩ := Intake.head_eq sound
    · have unread : i.ahead = p.ahead ++ i.waiting := congrArg (· ++ i.waiting) same.symm
      rw [accepted] at looked
      simp only at looked
      split at looked
      · rename_i body rest taken
        cases looked
        obtain ⟨front, left⟩ := Intake.front_of_body? kept taken
        refine ⟨left, ?_⟩
        rw [unread, (Frame.front_eq_frame.mp front).1]
        exact List.append_assoc ..
      · split at looked
        · cases looked
          exact ⟨kept, unread⟩
        · split at looked
          · cases looked
            exact ⟨kept, unread⟩
          · cases looked
            exact ⟨kept, unread⟩
    · rw [refused] at looked
      cases looked
      exact ⟨sound, rfl⟩

theorem takeEnd_intake (i : Inlet) : i.takeEnd.intake = i.intake ∧ i.takeEnd.ahead = i.ahead := by
  unfold takeEnd
  split <;> exact ⟨rfl, rfl⟩

theorem seek_ahead (sound : i.intake.Sound limit) :
    (i.seek limit).2.intake.Sound limit ∧ i.ahead = (i.seek limit).1.frame ++ (i.seek limit).2.ahead := by
  fun_induction seek limit i with
  | case1 i r j looked => exact look_ahead sound looked
  | case2 i j looked none r k found =>
    obtain ⟨first, same⟩ := look_ahead sound looked
    obtain ⟨intake, unread⟩ := takeEnd_intake j
    obtain ⟨last, taken⟩ := look_ahead (intake ▸ first) found
    exact ⟨last, same.trans (unread.symm.trans taken)⟩
  | case3 i j looked none k nothing =>
    obtain ⟨first, same⟩ := look_ahead sound looked
    obtain ⟨intake, unread⟩ := takeEnd_intake j
    obtain ⟨last, left⟩ := look_ahead (intake ▸ first) nothing
    have none : k.rest.frame = [] := by
      unfold rest
      split <;> rfl
    refine ⟨last, ?_⟩
    rw [none]
    exact same.trans (unread.symm.trans left)
  | case4 i j looked more _ ih =>
    obtain ⟨first, same⟩ := look_ahead sound looked
    obtain ⟨last, taken⟩ := ih first
    exact ⟨last, same.trans ((ahead_takeIn j).symm.trans taken)⟩

/-- A body that is received was the frame in front; whatever else is told, no byte is lost. -/
theorem receive_ahead (sound : i.intake.Sound limit) :
    (i.receive limit).2.intake.Sound limit ∧
      i.ahead = (i.receive limit).1.frame ++ (i.receive limit).2.ahead := by
  unfold receive
  split
  · exact ⟨sound, rfl⟩
  · exact seek_ahead sound

end Inlet

namespace Outlet

structure Clear (o : Outlet) : Prop where
  unsent : o.unsent = []
  closed : o.closed = false
  broken : o.broken = false

variable {o : Outlet} {limit : Nat} {body : Bytes}

theorem clear_fresh : fresh.Clear := ⟨rfl, rfl, rfl⟩

theorem send_fits (clear : o.Clear) (fits : body.length ≤ limit) :
    o.send limit body = (.ok (), { o with sent := o.sent ++ Frame.encode body }) := by
  obtain ⟨unsent, closed, broken⟩ := clear
  have some : Frame.encode body ≠ [] := by simp [Frame.encode, Bytes.bigEndian, Frame.headLength]
  simp [send, unsent, room, flush, closed, broken, Nat.not_lt.mpr fits, some]

theorem send_big (unsent : o.unsent = []) (big : limit < body.length) :
    o.send limit body = (.error (.io (Frame.tooBig .invalidInput)), o) := by
  simp [send, unsent, room, big]

theorem send_barred (unsent : o.unsent = []) (barred : limit < body.length ∨ o.broken = true) :
    ∃ e p, o.send limit body = (.error e, p) ∧ p.close.2.sent = o.sent := by
  have some : Frame.encode body ≠ [] := by simp [Frame.encode, Bytes.bigEndian, Frame.headLength]
  by_cases big : limit < body.length
  · exact ⟨_, o, send_big unsent big, by simp [close, flush, unsent]⟩
  · have broken := barred.resolve_left big
    refine ⟨.io (.system .brokenPipe), { o with unsent := Frame.encode body }, ?_, ?_⟩
    · simp [send, unsent, room, flush, broken, big, some]
    · simp [close, flush, broken, some]

theorem Clear.sent (clear : o.Clear) (b : Bytes) : Clear { o with sent := b } :=
  ⟨clear.unsent, clear.closed, clear.broken⟩

end Outlet

namespace Stream

/-- Nothing is under way: what has arrived was received, and what was sent was collected. -/
structure Idle (limit : Nat) (s : Stream) : Prop where
  bound : s.limit = limit
  inlet : s.inlet.Sound limit
  ahead : s.inlet.ahead = []
  open_ : s.inlet.closed = false
  outlet : s.outlet.Clear
  sent : s.outlet.sent = []

variable {α : Type} {c : Json.Codec α} {a : α} {s : Stream} {limit : Nat}

theorem idle_fresh (limit : Nat) : (fresh limit).Idle limit :=
  ⟨rfl, Inlet.sound_fresh, rfl, rfl, Outlet.clear_fresh, rfl⟩

theorem send_accepted (clear : s.outlet.Clear) (fits : (c.encode a).length ≤ s.limit) :
    s.send c a =
      (.ok (), { s with outlet := { s.outlet with sent := s.outlet.sent ++ Frame.encode (c.encode a) } }) := by
  simp only [Stream.send, Outlet.send_fits clear fits]

theorem send_refused (clear : s.outlet.Clear) (big : s.limit < (c.encode a).length) :
    s.send c a = (.error (.io (Frame.tooBig .invalidInput)), s) := by
  simp only [Stream.send, Outlet.send_big clear.unsent big]

theorem Idle.send (idle : s.Idle limit) (fits : (c.encode a).length ≤ limit) :
    ∃ t rest, s.send c a = (.ok (), t) ∧ t.collect = (Frame.encode (c.encode a), rest) ∧ rest.Idle limit := by
  obtain ⟨rfl, inlet, ahead, open_, outlet, sent⟩ := idle
  let o : Outlet := { s.outlet with sent := Frame.encode (c.encode a) }
  refine ⟨{ s with outlet := o }, { s with outlet := { o with sent := [] } }, ?_, rfl, ?_⟩
  · rw [send_accepted outlet fits, sent, List.nil_append]
  · exact ⟨rfl, inlet, ahead, open_, outlet.sent [], rfl⟩

theorem Idle.receive (idle : s.Idle limit) (fits : (c.encode a).length ≤ limit)
    (small : (c.encode a).length < Frame.most) (back : c.decode (c.encode a) = .ok a) :
    ∃ t, (s.feed (Frame.encode (c.encode a))).receive c = (.message a, t) ∧ t.Idle limit := by
  obtain ⟨rfl, inlet, ahead, open_, outlet, sent⟩ := idle
  let i := s.inlet.feed (Frame.encode (c.encode a))
  have all : i.ahead = Frame.encode (c.encode a) ++ [] := by
    rw [Inlet.ahead_feed, ahead, List.nil_append, List.append_nil]
  have first : Frame.front s.limit i.ahead = .frame (c.encode a) [] := all ▸ Frame.front_encode fits small []
  obtain ⟨j, received, left, none, closed⟩ := Inlet.receive_frame (inlet.feed _) first
  refine ⟨{ s with inlet := j }, ?_, ⟨rfl, left, none, closed.trans open_, outlet, sent⟩⟩
  simp only [Stream.receive, Stream.feed, received, back]

end Stream

end Custody
