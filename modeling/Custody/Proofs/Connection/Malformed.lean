import Custody.Proofs.Connection.Step

/-!
Frames that hold no request. Such a frame is answered under the number 0, and the connection goes on as if the
frame had not come; unless the answer, which repeats parts of the frame, is longer than the limit in force.
-/

namespace Custody

def ResponseFrame.malformed (why : String) : ResponseFrame :=
  ⟨0, .ofFailure (.protocol ("malformed message: " ++ why))⟩

theorem ResponseFrame.length_le_encode (id : UInt64) (kind : FailureKind) (why : String) :
    why.length ≤ (codec.encode ⟨id, .failed kind why⟩).length := by
  have text := Json.Codec.length_le_renderText why
  simp only [Json.Codec.encode, codec, schema, Json.Schema.codec, Json.Schema.members, Response.codec,
    Response.write, Response.tagged, Json.Tagged.fields, Response.failedSchema, Json.record, List.map_cons,
    List.map_nil, Json.render, Json.renderMembers, Json.Codec.text, Json.text, Json.renderString,
    List.length_append, List.length_cons]
  omega

namespace Connection

/-- The turn that meets the frame in front answers that it is no request, under the number 0, and does nothing
else; and the connection goes on in step with every one that has only the rest in front of it. -/
def Forgives (host : Host) (chance : Nat → Supply) (k : Nat) (held : Holdings) (c : Connection) (rest : Bytes) :
    Prop :=
  ∃ why e, c.turn host (chance k) held = (.served, e, held) ∧ e.session = c.session ∧
    e.stream.outlet.sent = c.stream.outlet.sent ++
      Frame.encode (ResponseFrame.codec.encode ⟨0, .failed .invalidRequest why⟩) ∧
    ∀ d : Connection, d.Reached host → d.stream.outlet.broken = false → d.session = c.session →
      d.stream.inlet.ahead = rest → d.stream.inlet.closed = c.stream.inlet.closed → ∀ pieces last gone,
      let p := (c.serve host chance k held).arrive host chance pieces
      let q := (d.serve host chance (k + 1) held).arrive host chance pieces
      p.InStep host e.stream.outlet.sent d.stream.outlet.sent q ∧
        (p.finish host chance last gone).InStep host e.stream.outlet.sent d.stream.outlet.sent
          (q.finish host chance last gone)

variable {host : Host} {c : Connection} {body rest : Bytes} {fault : Fault}

theorem hear_malformed (malformed : RequestFrame.codec.decode body = .error fault) (host : Host) (supply : Supply)
    (held : Holdings) (s : Session) :
    s.hear host supply held body = (.malformed (host.wording body fault), s, held) := by
  simp only [Session.hear, malformed]
  rfl

theorem not_forgives_of_ended {chance : Nat → Supply} {k : Nat} {held kept : Holdings} {e : Connection}
    (ended : c.turn host (chance k) held = (.ended, e, kept)) : ¬c.Forgives host chance k held rest := by
  rintro ⟨why, d, served, -⟩
  cases served.symm.trans ended

section Front

variable (live : c.Live host) (clear : c.stream.outlet.Clear)
  (front : Frame.front (host.limitIn c.session) c.stream.inlet.ahead = .frame body rest)
  (malformed : RequestFrame.codec.decode body = .error fault)

include live clear front malformed

theorem forgives_of_fits
    (fits : (ResponseFrame.codec.encode (.malformed (host.wording body fault))).length ≤ host.limitIn c.session)
    (chance : Nat → Supply) (k : Nat) (held : Holdings) : c.Forgives host chance k held rest := by
  have heard := hear_malformed malformed host (chance k) held c.session
  obtain ⟨e, turned, next⟩ := turn_served live front heard clear live.opened fits
  refine ⟨_, e, turned, next.session, next.sent, fun d reached present session ahead closed pieces last gone => ?_⟩
  have opened : d.session.state ≠ .closed := session ▸ live.opened
  have level : e.Level host d := .abreast {
    left := next.live
    right := reached.live opened
    session := session.trans next.session.symm
    ahead := ahead.trans next.ahead.symm
    closed := closed.trans next.inlet.symm
    outlets := .clear next.clear (reached.clear opened present) }
  have none : ∃ said, e.stream.outlet.sent = e.stream.outlet.sent ++ said ∧
      d.stream.outlet.sent = d.stream.outlet.sent ++ said :=
    ⟨[], (List.append_nil _).symm, (List.append_nil _).symm⟩
  have served : (c.serve host chance k held).InStep host e.stream.outlet.sent d.stream.outlet.sent
      (d.serve host chance (k + 1) held) := by
    rw [serve_served turned]
    exact .serve level none (k + 1) held
  exact ⟨served.arrive pieces, (served.arrive pieces).finish last gone⟩

theorem ends_of_long
    (long : host.limitIn c.session < (ResponseFrame.codec.encode (.malformed (host.wording body fault))).length)
    (supply : Supply) (held : Holdings) : ∃ e, c.turn host supply held = (.ended, e, held) ∧ c.Over e :=
  turn_unsent live front (hear_malformed malformed host supply held c.session) clear.unsent (.inl long)

end Front

end Connection

def RequestFrame.numbered (s : String) : Bytes := (Json.record [("id", .text s)]).render

theorem RequestFrame.decode_numbered (s : String) :
    codec.decode (numbered s) = .error (.invalidType (.text s) "u64") := by
  have plain : (Json.record [("id", .text s)]).Plain := .record (List.forall_mem_singleton.mpr (.text s))
  rw [Json.Codec.decode, numbered, plain.parse?_render]
  rfl

/-- A text of deletions. One is a single byte, and takes six characters where it is told of. -/
def deletions (n : Nat) : String := Bytes.ascii (List.replicate n 127)

theorem length_quoted_deletions (n : Nat) : (Text.quoted (deletions n)).length = 6 * n + 2 := by
  have one : (Text.quoteChar (Char.ofNat 127)).length = 6 := by decide +kernel
  have code : (127 : UInt8).toNat = 127 := rfl
  simp only [Text.quoted, deletions, Bytes.ascii, String.length_ofList, String.toList_ofList, List.map_replicate,
    List.length_append, List.length_cons, List.length_nil, List.length_flatMap, code, one, List.sum_replicate_nat]
  omega

theorem length_numbered_deletions (n : Nat) : (RequestFrame.numbered (deletions n)).length = n + 9 := by
  have ascii : ∀ c ∈ List.replicate n (127 : UInt8), c < 128 := by
    intro c member
    rw [List.eq_of_mem_replicate member]
    decide
  have one : (Json.escape 127).length = 1 := rfl
  have name : (Json.renderText "id").length = 4 := rfl
  have text : (Json.renderText (deletions n)).length = n + 2 := by
    simp only [Json.renderText, deletions, Bytes.ofText_ascii ascii, List.length_append, List.length_cons,
      List.length_nil, List.length_flatMap, List.map_replicate, one, List.sum_replicate_nat]
    omega
  simp only [RequestFrame.numbered, Json.record, List.map_cons, List.map_nil, Json.text, Json.render,
    Json.renderMembers, Json.renderString, List.length_append, List.length_cons, List.length_nil, name, text]
  omega

theorem length_malformed_deletions (n : Nat) (place : String) :
    6 * n < (ResponseFrame.codec.encode
      (.malformed ((Fault.invalidType (.text (deletions n)) "u64").message ++ place))).length := by
  have quoted := length_quoted_deletions n
  have failed (why : String) :
      Response.ofFailure (.protocol why) = .failed .invalidRequest ("Protocol error: " ++ why) := rfl
  have words : (Fault.invalidType (.text (deletions n)) "u64").message =
      "invalid type: " ++ ("string " ++ Text.quoted (deletions n)) ++ ", expected " ++ "u64" := rfl
  rw [ResponseFrame.malformed, failed]
  refine Nat.lt_of_lt_of_le ?_ (ResponseFrame.length_le_encode _ _ _)
  simp only [words, String.length_append, quoted]
  omega

/-- A host whose limit is the least at which strangers have the same, for examples. It tells the place of a fault
behind the fault. -/
def Host.plain (place : String) : Host :=
  ⟨.ofPassword (Bytes.ofText "p"), ⟨.plain, false⟩, 65536, fun _ fault => fault.message ++ place⟩

namespace Connection

def knocked (host : Host) (handle : Bytes.Sized 16) (body : Bytes) : Connection :=
  let c := accept host (.start handle (.four [127, 0, 0, 1] 5001))
  { c with stream := c.stream.feed (Frame.encode body) }

theorem knocked_waits (place : String) (handle : Bytes.Sized 16) (body : Bytes) :
    let c := knocked (.plain place) handle body
    c.Reached (.plain place) ∧ c.session.state = .unauthenticated ∧ c.stream.outlet.broken = false ∧
      c.stream.inlet.ahead = Frame.encode body ++ [] ∧ (Host.plain place).limitIn c.session = 65536 :=
  ⟨.fed (.accepted _ _) _, rfl, rfl, (List.append_nil _).symm, rfl⟩

theorem knocked_ends {place : String} {body : Bytes} {fault : Fault} (handle : Bytes.Sized 16)
    (admitted : body.length ≤ 65536) (malformed : RequestFrame.codec.decode body = .error fault)
    (long : 65536 < (ResponseFrame.codec.encode (.malformed (fault.message ++ place))).length) (supply : Supply)
    (held : Holdings) :
    ∃ e, (knocked (.plain place) handle body).turn (.plain place) supply held = (.ended, e, held) ∧
      e.session.state = .closed ∧ e.stream.outlet.sent = [] := by
  obtain ⟨reached, unopened, present, alone, limit⟩ := knocked_waits place handle body
  have opened : (knocked (.plain place) handle body).session.state ≠ .closed := unopened ▸ nofun
  have whole : body.length < Frame.most := Nat.lt_of_le_of_lt admitted (by decide)
  have front := Frame.front_eq_frame.mpr ⟨alone, limit ▸ admitted, whole⟩
  obtain ⟨e, ended, ending⟩ :=
    ends_of_long (reached.live opened) (reached.clear opened present) front malformed (limit ▸ long) supply held
  exact ⟨e, ended, ending.closed, ending.sent⟩

/-- However faults are told, a frame that is no request costs nothing exactly if the answer, which tells of the fault
and with it repeats parts of the frame, keeps to the limit that admitted the frame. If not, the connection ends without
an answer. -/
theorem forgives_iff_answer_fits {host : Host} {c : Connection} {body rest : Bytes} {fault : Fault}
    (reached : c.Reached host) (opened : c.session.state ≠ .closed) (present : c.stream.outlet.broken = false)
    (front : c.stream.inlet.ahead = Frame.encode body ++ rest) (admitted : body.length ≤ host.limitIn c.session)
    (whole : body.length < Frame.most) (malformed : RequestFrame.codec.decode body = .error fault)
    (chance : Nat → Supply) (k : Nat) (held : Holdings) :
    let answer := ResponseFrame.codec.encode (.malformed (host.wording body fault))
    (c.Forgives host chance k held rest ↔ answer.length ≤ host.limitIn c.session) ∧
      (host.limitIn c.session < answer.length →
        ∃ e, c.turn host (chance k) held = (.ended, e, held) ∧ c.Over e) := by
  intro answer
  have live := reached.live opened
  have clear := reached.clear opened present
  have front := Frame.front_eq_frame.mpr ⟨front, admitted, whole⟩
  have ends := fun long => ends_of_long live clear front malformed long (chance k) held
  refine ⟨⟨fun forgives => ?_, fun fits => forgives_of_fits live clear front malformed fits chance k held⟩, ends⟩
  by_contra beyond
  obtain ⟨e, ended, -⟩ := ends (Nat.not_le.mp beyond)
  exact not_forgives_of_ended ended forgives

theorem forgives_iff_answer_fits_empty :
    let host := Host.plain " at line 1 column 8"
    let handle : Bytes.Sized 16 := ⟨List.replicate 16 0, rfl⟩
    let body := RequestFrame.numbered ""
    let chance : Nat → Supply := fun _ => ⟨.plain, .plain, .smooth⟩
    let held : Holdings := ⟨.plain Draw.plain.salt, .empty .root⟩
    (∃ fault, RequestFrame.codec.decode body = .error fault) ∧
      (knocked host handle body).Forgives host chance 0 held [] := by
  intro host handle body chance held
  have malformed := RequestFrame.decode_numbered ""
  have fits : (ResponseFrame.codec.encode (.malformed (host.wording body (.invalidType (.text "") "u64")))).length ≤
      host.limitIn (knocked host handle body).session := by decide +kernel
  obtain ⟨reached, unopened, present, alone, limit⟩ := knocked_waits " at line 1 column 8" handle body
  obtain ⟨forgives, -⟩ := forgives_iff_answer_fits reached (unopened ▸ nofun) present alone (by decide +kernel)
    (by decide +kernel) malformed chance 0 held
  exact ⟨⟨_, malformed⟩, forgives.mpr fits⟩

/-- A frame of 10932 bytes under a limit of 65536, which is no request: its answer is longer than the limit, and
the connection ends without one. -/
theorem deletions_unforgiven :
    let host := Host.plain " at line 1 column 10931"
    let handle : Bytes.Sized 16 := ⟨List.replicate 16 0, rfl⟩
    let body := RequestFrame.numbered (deletions 10923)
    let chance : Nat → Supply := fun _ => ⟨.plain, .plain, .smooth⟩
    let held : Holdings := ⟨.plain Draw.plain.salt, .empty .root⟩
    ((knocked host handle body).Reached host ∧ (knocked host handle body).session.state = .unauthenticated ∧
      (knocked host handle body).stream.outlet.broken = false ∧
      (knocked host handle body).stream.inlet.ahead = Frame.encode body ++ [] ∧
      host.limitIn (knocked host handle body).session = 65536) ∧
    body.length = 10932 ∧ (∃ fault, RequestFrame.codec.decode body = .error fault) ∧
      ¬(knocked host handle body).Forgives host chance 0 held [] ∧
      ∃ e, (knocked host handle body).turn host (chance 0) held = (.ended, e, held) ∧ e.session.state = .closed ∧
        e.stream.outlet.sent = [] := by
  intro host handle body chance held
  have size : body.length = 10932 := length_numbered_deletions 10923
  have malformed := RequestFrame.decode_numbered (deletions 10923)
  have beyond : 65536 < 6 * 10923 := by decide
  have long := Nat.lt_trans beyond (length_malformed_deletions 10923 " at line 1 column 10931")
  have admitted : body.length ≤ 65536 := by omega
  obtain ⟨e, ended, closed, silent⟩ := knocked_ends handle admitted malformed long (chance 0) held
  exact ⟨knocked_waits _ handle body, size, ⟨_, malformed⟩, not_forgives_of_ended ended, e, ended, closed, silent⟩

end Connection

end Custody
