import Custody.Proofs.Client.Numbering

/-!
What a client makes of failures. A failure that crosses the wire comes out of the same kind, and what is withheld of
it is the same for all of its class; but where it carries words, they come out behind its title twice.
-/

namespace Custody

namespace Failure

/-- Failures that a client is told of in their own words. -/
def IsTold : Failure → Prop
  | authentication | notFound _ | corrupt _ | unauthorized | invalidInput _ => True
  | io _ | internal _ | crypto _ | serialization _ | protocol _ | configuration _ => False

/-- Failures inside the server, of which a client is told only that there was one. -/
def IsWithheld : Failure → Prop
  | io _ | internal _ | crypto _ | configuration _ => True
  | authentication | notFound _ | corrupt _ | unauthorized | invalidInput _ | serialization _ | protocol _ => False

def retold (words : String) : Failure → Failure
  | notFound _ => notFound words
  | corrupt _ => corrupt words
  | invalidInput _ => invalidInput words
  | e => e

/-- What is told in place of a failure that is withheld. -/
def standIn (e : Failure) : Failure :=
  if e.isTransient then io (.reported .other "I/O error, retry later") else internal "internal error"

def reported (e : Failure) : Failure := (FailureKind.ofFailure e).toFailure (FailureKind.messageOf e)

variable {e : Failure}

theorem ctorIdx_retold (words : String) (e : Failure) : (e.retold words).ctorIdx = e.ctorIdx := by
  cases e <;> rfl

theorem reported_of_told (told : e.IsTold) : e.reported = e.retold e.message := by
  cases e with
  | authentication | notFound | corrupt | unauthorized | invalidInput => rfl
  | io | internal | crypto | serialization | protocol | configuration => exact told.elim

theorem reported_of_withheld (withheld : e.IsWithheld) : e.reported = e.standIn := by
  cases e with
  | io | internal | crypto | configuration => rfl
  | authentication | notFound | corrupt | unauthorized | invalidInput | serialization | protocol =>
    exact withheld.elim

theorem isTransient_standIn (e : Failure) : e.standIn.isTransient = e.isTransient := by
  unfold standIn
  cases transient : e.isTransient with
  | true => rfl
  | false => rfl

theorem append_ne_self {title : String} (some : 0 < title.length) (words : String) : title ++ words ≠ words := by
  intro same
  have length := congrArg String.length same
  rw [String.length_append] at length
  omega

theorem message_retold_iff (told : e.IsTold) :
    (e.retold e.message).message = e.message ↔ e = .authentication ∨ e = .unauthorized := by
  cases e with
  | authentication => exact ⟨fun _ => .inl rfl, fun _ => rfl⟩
  | unauthorized => exact ⟨fun _ => .inr rfl, fun _ => rfl⟩
  | notFound | corrupt | invalidInput =>
    constructor
    · exact fun same => absurd same (append_ne_self (by decide) _)
    · rintro (same | same) <;> cases same
  | io | internal | crypto | serialization | protocol | configuration => exact told.elim

end Failure

namespace Client

variable {σ : Type} {peer : Peer σ} {before after : σ} {c : Client} {r : Request} {number : UInt64} {e : Failure}

theorem accept_ofFailure {id : UInt64} (own : number = id ∨ number = 0) (e : Failure) :
    accept id ⟨number, .ofFailure e⟩ = .error e.reported := by
  have accepted : (number != id && number != 0) = false := by
    rcases own with rfl | rfl
    · simp
    · simp
  simp only [accept, accepted, Bool.false_eq_true, if_false]
  rfl

/-- A client that is answered by a failure, under the number of its request or 0, reports a failure of the same
variant, or what stands in for those that are withheld. The text is that of the server's failure exactly if this
carries no words; if it does, its whole text, title included, comes out behind the title. -/
theorem failures_cross_iff (idle : c.stream.Idle Settings.usualFrameLimit)
    (fits : (RequestFrame.codec.encode ⟨c.next, r⟩).length ≤ Settings.usualFrameLimit)
    (answered : peer.react before (Frame.encode (RequestFrame.codec.encode ⟨c.next, r⟩)) =
      (after, Frame.encode (ResponseFrame.codec.encode ⟨number, .ofFailure e⟩), false))
    (own : number = c.next ∨ number = 0)
    (short : (ResponseFrame.codec.encode ⟨number, .ofFailure e⟩).length ≤ Settings.usualFrameLimit) :
    ∃ f, (c.ask peer r before).1 = some (.error f) ∧
      (∀ k : Call, k.request = .ok r → (c.call peer k before).1 = some (.error f)) ∧
      (e.IsTold → f = e.retold e.message ∧ f.ctorIdx = e.ctorIdx ∧
        (f.message = e.message ↔ e = .authentication ∨ e = .unauthorized)) ∧
      (e.IsWithheld → f = e.standIn ∧ f.isTransient = e.isTransient) := by
  obtain ⟨stream, asked, -⟩ := ask_answered idle fits answered trivial short
  rw [accept_ofFailure own] at asked
  refine ⟨e.reported, congrArg Prod.fst asked, ?_, ?_, ?_⟩
  · intro k made
    simp only [call, made, asked]
    rfl
  · intro told
    rw [Failure.reported_of_told told]
    exact ⟨rfl, Failure.ctorIdx_retold _ e, Failure.message_retold_iff told⟩
  · intro withheld
    rw [Failure.reported_of_withheld withheld]
    exact ⟨rfl, e.isTransient_standIn⟩

def absentKey : Failure := .notFound "Key not found: a"

theorem absent_fits : (RequestFrame.codec.encode ⟨1, .get .plain⟩).length ≤ Settings.usualFrameLimit ∧
    (ResponseFrame.codec.encode ⟨1, .ofFailure absentKey⟩).length ≤ Settings.usualFrameLimit := by
  constructor
  · decide +kernel
  · decide +kernel

theorem failures_cross_iff_absent : ∃ f,
    (fresh.ask scripted (.get .plain) [⟨1, .ofFailure absentKey⟩]).1 = some (.error f) ∧ absentKey.IsTold ∧
      f = absentKey.retold "Not found: Key not found: a" ∧ f.ctorIdx = absentKey.ctorIdx := by
  obtain ⟨fits, short⟩ := absent_fits
  obtain ⟨f, asked, -, told, -⟩ := failures_cross_iff (c := fresh) (Stream.idle_fresh _) fits
    (scripted_react ⟨1, .ofFailure absentKey⟩ [] _) (.inl rfl) short
  obtain ⟨same, variant, -⟩ := told trivial
  exact ⟨f, asked, trivial, same, variant⟩

/-- The client reports a missing key under its title twice, where the server reported it once. -/
theorem absent_key_titled_twice : ∃ f,
    (fresh.ask scripted (.get .plain) [⟨1, .ofFailure absentKey⟩]).1 = some (.error f) ∧ absentKey.IsTold ∧
      absentKey.message = "Not found: Key not found: a" ∧
      f.message = "Not found: Not found: Key not found: a" ∧ f.message ≠ absentKey.message := by
  obtain ⟨fits, short⟩ := absent_fits
  obtain ⟨stream, asked, -⟩ := ask_answered (c := fresh) (Stream.idle_fresh _) fits
    (scripted_react ⟨1, .ofFailure absentKey⟩ [] _) trivial short
  have accepted : accept 1 ⟨1, .ofFailure absentKey⟩ = .error absentKey.reported :=
    accept_ofFailure (.inl rfl) absentKey
  refine ⟨absentKey.reported, (congrArg Prod.fst asked).trans (congrArg some accepted), trivial, ?_, ?_, ?_⟩
  · decide
  · decide
  · decide

end Client

end Custody
