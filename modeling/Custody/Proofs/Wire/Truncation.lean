import Custody.Proofs.Wire.Framing

/-!
Streams that end inside a frame. The messages of the whole frames are told, and then that the rest is missing. Only
where the end comes right behind a head is nothing seen to be missing.
-/

namespace Custody

theorem Intake.buffer_eq_nil_iff {p : Intake} (lacks : p.Lacks) :
    p.buffer = [] ↔ p.ahead = [] ∨ p.ahead.length = Frame.headLength := by
  unfold Lacks at lacks
  unfold ahead
  cases due : p.due with
  | some n =>
    simp only [List.append_eq_nil_iff, List.length_append, Bytes.length_bigEndian, Nat.add_eq_left,
      List.length_eq_zero_iff]
    exact ⟨.inr, fun held => held.elim And.right id⟩
  | none =>
    rw [due] at lacks
    exact ⟨.inl, fun held => held.resolve_right (Nat.ne_of_lt lacks)⟩

namespace Inlet

structure Cut (i : Inlet) : Prop where
  waiting : i.waiting = []
  closed : i.closed = true
  ended : i.ended = true
  troubled : i.troubled = true

variable {limit : Nat} {i : Inlet}

theorem look_short (sound : i.Sound limit) (short : Frame.front limit i.ahead = .short) :
    ∃ j, i.look limit = (none, j) := by
  unfold look
  split
  · exact ⟨i, rfl⟩
  · obtain ⟨p, accepted, kept, same, -⟩ | ⟨-, big⟩ := Intake.head_eq sound.intake
    · rw [accepted]
      cases taken : p.body? with
      | none => exact ⟨{ i with intake := p, ready := false }, by simp [sound.unended, taken]⟩
      | some found =>
        have front := (Intake.front_of_body? kept taken).1
        rw [same] at front
        cases short.symm.trans (Frame.front_frame_append front i.waiting)
    · cases short.symm.trans (Frame.front_tooBig_append big i.waiting)

def ending {α : Type} (left : Bytes) : Receipt α :=
  if left = [] ∨ left.length = Frame.headLength then .finished else .failed (.io Frame.cutOff)

theorem look_ending (sound : i.Sound limit) (asleep : i.ready = false) (empty : i.waiting = [])
    (closed : i.closed = true) :
    ∃ j, i.takeEnd.look limit = (some (ending i.ahead), j) ∧ (j.Over ∨ j.Cut) := by
  have lacks := sound.idle asleep
  have woken : i.takeEnd = { i with ready := true, ended := true } := by
    simp [takeEnd, closed, sound.unended]
  have held := Intake.buffer_eq_nil_iff lacks
  have whole : i.ahead = i.intake.ahead := by rw [ahead, empty, List.append_nil]
  rw [← whole] at held
  rw [woken, ending]
  simp only [look, Intake.head_of_lacks lacks, Intake.body?_of_lacks lacks, Bool.not_true, Bool.false_eq_true,
    if_false, held]
  by_cases clean : i.ahead = [] ∨ i.ahead.length = Frame.headLength
  · rw [if_pos clean, if_pos clean]
    refine ⟨_, rfl, .inl ?_⟩
    exact ⟨empty, closed, rfl, rfl, sound.untroubled⟩
  · rw [if_neg clean, if_neg clean]
    refine ⟨_, rfl, .inr ?_⟩
    exact ⟨empty, closed, rfl, rfl⟩

theorem seek_ending (sound : i.Sound limit) (closed : i.closed = true)
    (short : Frame.front limit i.ahead = .short) :
    ∃ j, i.seek limit = (ending i.ahead, j) ∧ (j.Over ∨ j.Cut) := by
  fun_induction seek limit i with
  | case1 i r j looked =>
    obtain ⟨k, other⟩ := look_short sound short
    cases looked.symm.trans other
  | case2 i j looked none r k found =>
    obtain ⟨left, asleep, same, still⟩ := look_none sound looked
    obtain ⟨m, told, past⟩ := look_ending left asleep none (still.trans closed)
    cases found.symm.trans told
    exact ⟨k, by rw [same], past⟩
  | case3 i j looked none k nothing =>
    obtain ⟨left, asleep, -, still⟩ := look_none sound looked
    obtain ⟨m, told, -⟩ := look_ending left asleep none (still.trans closed)
    cases nothing.symm.trans told
  | case4 i j looked more _ ih =>
    obtain ⟨left, -, same, still⟩ := look_none sound looked
    have same : j.takeIn.ahead = i.ahead := (ahead_takeIn j).trans same
    have found := ih left.takeIn (still.trans closed) (same ▸ short)
    rwa [same] at found

theorem receive_ending (sound : i.Sound limit) (closed : i.closed = true)
    (short : Frame.front limit i.ahead = .short) :
    ∃ j, i.receive limit = (ending i.ahead, j) ∧ (j.Over ∨ j.Cut) := by
  rw [receive, if_neg (by simp [sound.untroubled])]
  exact seek_ending sound closed short

theorem receive_past (past : i.Over ∨ i.Cut) : ∃ j, i.receive limit = (.finished, j) ∧ j.Over := by
  cases past with
  | inl clean => exact ⟨i, receive_over clean, clean⟩
  | inr cut =>
    refine ⟨{ i with ready := false, troubled := false }, if_pos cut.troubled, ?_⟩
    exact ⟨cut.waiting, cut.closed, rfl, cut.ended, rfl⟩

end Inlet

namespace Stream

variable {α : Type} {c : Json.Codec α} {s : Stream} {row left : List (Parcel c)} {part missing : Bytes} {limit : Nat}
  {closed : Bool}

theorem receipts_past (past : s.inlet.Over ∨ s.inlet.Cut) (n : Nat) :
    receipts c s (.replicate n .ask) = .replicate n .finished := by
  cases n with
  | zero => rfl
  | succ n =>
    obtain ⟨j, received, clean⟩ : ∃ j, s.inlet.receive s.limit = (.finished, j) ∧ j.Over := Inlet.receive_past past
    have same : s.attend c .ask = ([.finished], { s with inlet := j }) := by
      simp only [attend, Stream.receive, received]
    have others := receipts_over (c := c) (s := { s with inlet := j }) clean n
    simp only [receipts, List.replicate_succ, runOn, same, List.flatten_cons] at others ⊢
    exact congrArg (List.cons _) others

theorem Awaits.held (awaits : Awaits (row ++ left) missing closed s) (behind : part ++ missing = Parcel.wire left) :
    s.inlet.ahead = Parcel.wire row ++ part := by
  have wire := awaits.wire
  rw [Parcel.wire_append, ← behind, ← List.append_assoc] at wire
  exact List.append_cancel_right wire

theorem Awaits.last (awaits : Awaits left missing true s) (behind : part ++ missing = Parcel.wire left)
    (inside : ∀ p ∈ left.head?, part.length < (Frame.encode p.body).length) :
    ∃ t, s.attend c .ask = ([Inlet.ending part], t) ∧ (t.inlet.Over ∨ t.inlet.Cut) := by
  have whole : Awaits ([] ++ left) missing true s := awaits
  have held : s.inlet.ahead = part := whole.held behind
  have short := awaits.short (held ▸ inside)
  obtain ⟨j, received, past⟩ := Inlet.receive_ending awaits.sound awaits.closed short
  refine ⟨{ s with inlet := j }, ?_, past⟩
  rw [held, Inlet.ending] at received
  unfold Inlet.ending
  split at received <;> rename_i clean
  · simp only [attend, Stream.receive, received, if_pos clean]
  · simp only [attend, Stream.receive, received, if_neg clean]

/-- At the end of the connection the whole frames are told, then what is told of the part behind them, and then that
there is nothing more. -/
theorem Awaits.ending {n most : Nat} (awaits : Awaits (row ++ left) missing true s)
    (behind : part ++ missing = Parcel.wire left)
    (inside : ∀ p ∈ left.head?, part.length < (Frame.encode p.body).length) (le : n ≤ most) :
    receipts c s (.replicate n .ask) =
      (row.map Parcel.told ++ Inlet.ending part :: .replicate most .finished).take n := by
  induction n generalizing row s with
  | zero => rfl
  | succ n ih =>
    cases row with
    | nil =>
      obtain ⟨t, same, past⟩ := Awaits.last awaits behind inside
      have others := receipts_past (c := c) past n
      simp only [receipts, List.replicate_succ, runOn, same, List.flatten_cons] at others ⊢
      rw [others, List.map_nil, List.nil_append, List.take_succ_cons, List.take_replicate,
        Nat.min_eq_left (Nat.le_of_succ_le le)]
      rfl
    | cons p row =>
      have whole : (Frame.encode p.body).length ≤ s.inlet.ahead.length := by
        rw [awaits.held behind, Parcel.wire, List.flatMap_cons, List.append_assoc, List.length_append]
        exact Nat.le_add_right _ _
      obtain ⟨t, same, after⟩ := awaits.next whole
      have others := ih after (Nat.le_of_succ_le le)
      simp only [receipts, List.replicate_succ, runOn, same, List.flatten_cons] at others ⊢
      rw [others]
      rfl

/-- The stream ends after these bytes: however they come and whenever one asks, these receipts are told first, then
the last, and from then on that there is nothing more. -/
def EndsWith (c : Json.Codec α) (limit : Nat) (come : Bytes) (told : List (Receipt α)) (last : Receipt α) : Prop :=
  ∀ arrivals : List Arrival, arrivals.flatMap Arrival.come = come →
    ∃ early late, told = early ++ late ∧ receipts c (.fresh limit) arrivals = early ∧
      ∀ n, receipts c (attended c (.fresh limit) arrivals).finish (.replicate n .ask) =
        (late ++ last :: .replicate n .finished).take n

theorem endsWith (fits : ∀ p ∈ row ++ left, p.Fits limit ∧ p.Readable) (behind : part ++ missing = Parcel.wire left)
    (inside : ∀ p ∈ left.head?, part.length < (Frame.encode p.body).length) :
    EndsWith c limit (Parcel.wire row ++ part) (row.map Parcel.told) (Inlet.ending part) := by
  intro arrivals come
  have whole : arrivals.flatMap Arrival.come ++ missing = Parcel.wire (row ++ left) := by
    rw [come, Parcel.wire_append, List.append_assoc, behind]
  have start : (fresh limit).Awaits (row ++ left) (arrivals.flatMap Arrival.come ++ missing) false :=
    ⟨Inlet.sound_fresh, whole, fits, rfl⟩
  obtain ⟨done, rest, split, told, awaits⟩ := start.run
  -- the frame that has not come whole is among those that are still awaited
  obtain ⟨late, rfl, rfl⟩ : ∃ late, row = done ++ late ∧ rest = late ++ left := by
    obtain ⟨more, rfl, rfl⟩ | found := List.append_eq_append_iff.mp split
    · cases more with
      | nil => exact ⟨[], by simp, rfl⟩
      | cons p more =>
        have short := inside p rfl
        have length := congrArg List.length behind
        have left := congrArg List.length awaits.wire
        simp only [Parcel.wire, List.cons_append, List.flatMap_cons, List.flatMap_append, List.length_append]
          at length left
        omega
    · exact found
  refine ⟨done.map Parcel.told, late.map Parcel.told, List.map_append, told, fun n => ?_⟩
  exact awaits.finish.ending behind inside (Nat.le_refl n)

theorem EndsWith.unique {come : Bytes} {told : List (Receipt α)} {last other : Receipt α}
    (first : EndsWith c limit come told last) (second : EndsWith c limit come told other) : last = other := by
  obtain ⟨early, late, rfl, before, after⟩ := first [.bytes come] (List.append_nil come)
  obtain ⟨early', late', same, rfl, after'⟩ := second [.bytes come] (List.append_nil come)
  rw [before] at same
  cases List.append_cancel_left same
  have both := (after (late.length + 1)).symm.trans (after' (late.length + 1))
  simp only [List.take_append, List.take_of_length_le (Nat.le_succ _), Nat.add_sub_cancel_left,
    List.take_succ_cons, List.take_zero, List.append_cancel_left_eq, List.cons.injEq, and_true] at both
  exact both

/-- The stream ends inside the frame of a message, after some of its bytes and before its last. The messages before it
are told, and then an error; but the end right behind a head is told as a clean one. -/
def TellsCuts (c : Json.Codec α) (limit : Nat) (before : List α) (a : α) : Prop :=
  ∀ part missing : Bytes, part ++ missing = Frame.encode (c.encode a) → part ≠ [] → missing ≠ [] →
    let come := (before.flatMap fun b => Frame.encode (c.encode b)) ++ part
    let told := before.map Receipt.message
    (EndsWith c limit come told (.failed (.io Frame.cutOff)) ↔ part.length ≠ Frame.headLength) ∧
      (EndsWith c limit come told .finished ↔ part.length = Frame.headLength)

theorem tellsCuts {before : List α} {a : α}
    (fits : ∀ b ∈ before ++ [a], (c.encode b).length ≤ limit ∧ (c.encode b).length < Frame.most)
    (readable : ∀ b ∈ before ++ [a], c.decode (c.encode b) = .ok b) : TellsCuts c limit before a := by
  intro part missing whole some more come told
  let row : List (Parcel c) := before.map .message
  let left : List (Parcel c) := [.message a]
  have ends : EndsWith c limit come told (Inlet.ending part) := by
    have fits : ∀ p ∈ row ++ left, p.Fits limit ∧ p.Readable := by
      intro p member
      have member : p ∈ (before ++ [a]).map Parcel.message := by rwa [List.map_append]
      obtain ⟨b, given, rfl⟩ := List.mem_map.mp member
      exact ⟨fits b given, readable b given⟩
    have inside : ∀ p ∈ left.head?, part.length < (Frame.encode p.body).length := by
      rintro p ⟨⟩
      rw [Parcel.body, ← whole, List.length_append]
      exact Nat.lt_add_of_pos_right (List.length_pos_iff.mpr more)
    have behind : part ++ missing = Parcel.wire left := whole.trans (Parcel.wire_singleton (.message a)).symm
    have ends := endsWith fits behind inside
    rwa [Parcel.wire, List.flatMap_map, List.map_map] at ends
  have ending : (Inlet.ending part : Receipt α) =
      if part.length = Frame.headLength then .finished else .failed (.io Frame.cutOff) := by
    simp only [Inlet.ending, some, false_or]
  rw [ending] at ends
  by_cases head : part.length = Frame.headLength
  · rw [if_pos head] at ends
    refine ⟨⟨fun other => ?_, absurd head⟩, fun _ => head, fun _ => ends⟩
    cases ends.unique other
  · rw [if_neg head] at ends
    refine ⟨⟨fun _ => head, fun _ => ends⟩, fun other => ?_, fun same => absurd same head⟩
    cases ends.unique other

theorem tellsCuts_frames {limit : Nat} :
    (∀ (before : List RequestFrame) (f : RequestFrame),
      (∀ g ∈ before ++ [f], (RequestFrame.codec.encode g).length ≤ limit ∧
        (RequestFrame.codec.encode g).length < Frame.most) →
      TellsCuts RequestFrame.codec limit before f) ∧
    ∀ (before : List ResponseFrame) (f : ResponseFrame),
      (∀ g ∈ before ++ [f], g.response.Writable ∧ (ResponseFrame.codec.encode g).length ≤ limit ∧
        (ResponseFrame.codec.encode g).length < Frame.most) →
      TellsCuts ResponseFrame.codec limit before f := by
  constructor
  · intro before f fits
    exact tellsCuts fits fun g _ => (RequestFrame.codec_faithful g).decode_encode
  · intro before f fits
    refine tellsCuts (fun g member => (fits g member).2) fun g member => ?_
    exact (ResponseFrame.codec_faithful (fits g member).1).decode_encode

theorem tellsCuts_frames_pings :
    (∀ g ∈ [(⟨1, .ping⟩ : RequestFrame)] ++ [⟨2, .ping⟩], (RequestFrame.codec.encode g).length ≤ 34 ∧
        (RequestFrame.codec.encode g).length < Frame.most) ∧
      EndsWith RequestFrame.codec 34
        (Frame.encode (RequestFrame.codec.encode ⟨1, .ping⟩) ++
          (Frame.encode (RequestFrame.codec.encode ⟨2, .ping⟩)).take 7)
        [.message ⟨1, .ping⟩] (.failed (.io Frame.cutOff)) := by
  have fits : ∀ g ∈ [(⟨1, .ping⟩ : RequestFrame)] ++ [⟨2, .ping⟩], (RequestFrame.codec.encode g).length ≤ 34 ∧
      (RequestFrame.codec.encode g).length < Frame.most := by decide +kernel
  have told := tellsCuts_frames.1 _ _ fits ((Frame.encode (RequestFrame.codec.encode ⟨2, .ping⟩)).take 7)
    _ (List.take_append_drop 7 _) (by decide +kernel) (by decide +kernel)
  have ends := told.1.mpr (by decide +kernel)
  rw [List.flatMap_singleton] at ends
  exact ⟨fits, ends⟩

/-- Of a single ping only the head comes, four bytes of thirty-eight, and there is no error. -/
theorem head_alone_ends_cleanly :
    (Frame.encode (RequestFrame.codec.encode ⟨1, .ping⟩)).length = 38 ∧
      ¬EndsWith RequestFrame.codec 1024 ((Frame.encode (RequestFrame.codec.encode ⟨1, .ping⟩)).take 4) []
        (.failed (.io Frame.cutOff)) := by
  have fits : ∀ g ∈ [] ++ [(⟨1, .ping⟩ : RequestFrame)], (RequestFrame.codec.encode g).length ≤ 1024 ∧
      (RequestFrame.codec.encode g).length < Frame.most := by decide +kernel
  have told := tellsCuts fits (fun g _ => (RequestFrame.codec_faithful g).decode_encode)
    ((Frame.encode (RequestFrame.codec.encode ⟨1, .ping⟩)).take 4) _ (List.take_append_drop 4 _)
    (by decide +kernel) (by decide +kernel)
  exact ⟨by decide +kernel, fun ends => told.1.mp ends (by decide +kernel)⟩

end Stream

end Custody
