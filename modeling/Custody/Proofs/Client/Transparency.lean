import Custody.Proofs.Client.Exchange
import Custody.Proofs.Keeper
import Custody.Proofs.Run
import Custody.Proofs.Service.Requests
import Custody.Proofs.Vault.Reopening

/-!
Calls over a connection and calls at first hand. What a client is told by a server is what the vault and its
keeper would have told it directly, and the vault ends up the same.
-/

namespace Custody

namespace Vault

/-- Every time that is told is one that some text stands for. -/
def Timely (v : Vault) : Prop := ∀ s ∈ v.list, ∃ text, Instant.ofText text = .ok s.created

theorem Timely.put {v : Vault} (timely : v.Timely) (id : KeyId) (material : Bytes) (metadata : Metadata)
    {draw : Draw} (clock : ∃ text, Instant.ofText text = .ok draw.now) :
    (v.keep (v.entryOf id material metadata draw)).Timely := by
  intro s member
  obtain ⟨e, stored, rfl⟩ := List.mem_map.mp member
  rcases Catalog.mem_place stored with rfl | before
  · exact clock
  · exact timely e.summary (List.mem_map_of_mem before)

theorem Timely.after {v : Vault} (timely : v.Timely) {draw : Draw}
    (clock : ∃ text, Instant.ofText text = .ok draw.now) (r : Request) : (v.after draw r).Timely := by
  cases r with
  | put id material metadata =>
    simp only [Vault.after, Request.operation?, apply_put]
    cases refusal? material with
    | some e => exact timely
    | none => exact timely.put id material metadata clock
  | delete id =>
    intro s member
    obtain ⟨e, stored, rfl⟩ := List.mem_map.mp member
    exact timely e.summary (List.mem_map_of_mem (List.mem_filter.mp stored).1)
  | clear => exact fun s member => absurd member List.not_mem_nil
  | auth | get | list | contains | count | save | ping => exact timely

theorem count_after (v : Vault) (draw : Draw) (r : Request) : (v.after draw r).count ≤ v.count + 1 := by
  cases r with
  | put id material metadata =>
    simp only [after, Request.operation?, apply_put]
    cases refusal? material with
    | some e => exact Nat.le_succ _
    | none => exact Catalog.size_insert_le _ _
  | delete id => exact Nat.le_succ_of_le (List.length_filter_le _ _)
  | clear => exact Nat.zero_le _
  | auth | get | list | contains | count | save | ping => exact Nat.le_succ _

end Vault

theorem Service.handle_writable (s : Service) (supply : Supply) {h : Holdings} (timely : h.vault.Timely)
    (small : h.vault.count < UInt64.size) (r : Request) : (s.handle supply h r).1.Writable := by
  cases r with
  | put id material metadata =>
    simp only [handle, perform]
    cases h.vault.put id material metadata supply.draw with
    | error e => exact trivial
    | ok p => exact trivial
  | get id =>
    simp only [handle, perform]
    cases h.vault.get id with
    | error e => exact trivial
    | ok material => exact trivial
  | list => exact timely
  | count | clear => exact small
  | save =>
    simp only [handle, perform]
    cases saved : s.save supply h with
    | mk result kept =>
      cases result with
      | error e => exact trivial
      | ok n =>
        have all : n = h.vault.count := count_of_save (congrArg Prod.fst saved)
        exact all ▸ small
  | auth | delete | contains | ping => exact trivial

/-- What a call comes to where the vault and its keeper are at hand. -/
def Call.direct (s : Service) (supply : Supply) (h : Holdings) : Call → Except Failure Reply × Holdings
  | put id material metadata =>
    match KeyId.ofText id with
    | .error e => (.error e, h)
    | .ok id =>
      match h.vault.put id material metadata supply.draw with
      | .error e => (.error e, h)
      | .ok (replaced, vault) => (.ok (.replaced replaced), s.afterChange supply { h with vault })
  | get id => ((KeyId.ofText id).bind fun id => (h.vault.get id).map .material, h)
  | delete id =>
    match KeyId.ofText id with
    | .error e => (.error e, h)
    | .ok id =>
      let (existed, vault) := h.vault.delete id
      let h := { h with vault }
      (.ok (.existed existed), if existed then s.afterChange supply h else h)
  | list => (.ok (.summaries h.vault.list), h)
  | contains id => ((KeyId.ofText id).map fun id => .found (h.vault.contains id), h)
  | count => (.ok (.count h.vault.count), h)
  | clear =>
    let (removed, vault) := h.vault.clear
    let h := { h with vault }
    (.ok (.removed removed), if 0 < removed then s.afterChange supply h else h)
  | save =>
    let (saved, h) := s.save supply h
    (saved.map .saved, h)
  | ping => (.ok .done, h)

def Call.directly (s : Service) (chance : Nat → Supply) (p : Nat × Holdings) (k : Call) :
    Except Failure Reply × Nat × Holdings :=
  let (reply, h) := k.direct s (chance p.1) p.2
  (reply, if k.request.isOk then p.1 + 1 else p.1, h)

/-- The same reply, or a failure of the same kind. -/
def Call.Alike (told direct : Except Failure Reply) : Prop :=
  match direct with
  | .ok r => told = .ok r
  | .error e => ∃ f, told = .error f ∧ FailureKind.ofFailure f = FailureKind.ofFailure e

/-- What a client is told of a call: that it is refused, as it is directly, or what it comes to directly. -/
def Call.Answered (k : Call) (told : Option (Except Failure Reply)) (direct : Except Failure Reply) : Prop :=
  match k.request with
  | .error e => told = some (.error e) ∧ direct = .error e
  | .ok _ => ∃ t, told = some t ∧ Alike t direct

theorem Call.request_ne_auth {k : Call} {r : Request} (made : k.request = .ok r) (password : String) :
    r ≠ .auth password := by
  cases k with
  | put | get | delete | contains =>
    obtain ⟨id, -, rfl⟩ := Except.map_eq_ok.mp made
    exact nofun
  | list | count | clear | save | ping =>
    cases made
    exact nofun

theorem FailureKind.ofFailure_toFailure (k : FailureKind) (message : String) :
    ofFailure (k.toFailure message) = k := by
  cases k <;> rfl

namespace Client

variable {host : Host} {chance : Nat → Nat → Supply} {n : Nat} {c : Client} {d : Connection} {held : Holdings}

def told (k : Call) (r : Response) : Except Failure Reply :=
  (match r with
    | .failed kind message => .error (kind.toFailure message)
    | r => .ok r : Except Failure Response).bind k.reply

theorem accept_same (id : UInt64) (k : Call) (r : Response) : (accept id ⟨id, r⟩).bind k.reply = told k r := by
  have number : (id != id && id != 0) = false := by simp
  simp only [accept, number, Bool.false_eq_true, if_false]
  rfl

theorem told_ofFailure (k : Call) (e : Failure) :
    told k (.ofFailure e) = .error ((FailureKind.ofFailure e).toFailure (FailureKind.messageOf e)) := rfl

theorem alike_ofFailure (k : Call) (e : Failure) : Call.Alike (told k (.ofFailure e)) (.error e) :=
  ⟨_, told_ofFailure k e, FailureKind.ofFailure_toFailure _ _⟩

theorem handle_direct {k : Call} {r : Request} (made : k.request = .ok r) (s : Service) (supply : Supply)
    (h : Holdings) :
    (s.handle supply h r).2 = (k.direct s supply h).2 ∧
      Call.Alike (told k (s.handle supply h r).1) (k.direct s supply h).1 := by
  cases k with
  | put name material metadata =>
    obtain ⟨id, named, rfl⟩ := Except.map_eq_ok.mp made
    simp only [Call.direct, named, Service.handle, Service.perform]
    cases h.vault.put id material metadata supply.draw with
    | error e => exact ⟨rfl, alike_ofFailure _ e⟩
    | ok p => exact ⟨rfl, rfl⟩
  | get name =>
    obtain ⟨id, named, rfl⟩ := Except.map_eq_ok.mp made
    simp only [Call.direct, named, Except.bind, Service.handle, Service.perform]
    cases h.vault.get id with
    | error e => exact ⟨rfl, alike_ofFailure _ e⟩
    | ok material => exact ⟨rfl, rfl⟩
  | delete name | contains name =>
    obtain ⟨id, named, rfl⟩ := Except.map_eq_ok.mp made
    simp only [Call.direct, named, Except.map]
    exact ⟨rfl, rfl⟩
  | list | count | clear | ping =>
    cases made
    exact ⟨rfl, rfl⟩
  | save =>
    cases made
    simp only [Call.direct, Service.handle, Service.perform]
    cases saved : s.save supply h with
    | mk result kept =>
      cases result with
      | error e => exact ⟨rfl, alike_ofFailure _ e⟩
      | ok n => exact ⟨rfl, rfl⟩

/-- Every frame of a row of calls keeps to the limits of both sides. The calls that are refused have none. -/
def Fits (host : Host) (chance : Nat → Supply) : UInt64 → Nat → Holdings → List Call → Prop
  | _, _, _, [] => True
  | id, n, h, k :: rest =>
    match k.request with
    | .error _ => Fits host chance id n h rest
    | .ok r =>
      let (response, kept) := host.service.handle (chance n) h r
      (RequestFrame.codec.encode ⟨id, r⟩).length ≤ min host.limit Settings.usualFrameLimit ∧
        (ResponseFrame.codec.encode ⟨id, response⟩).length ≤ min host.limit Settings.usualFrameLimit ∧
        Fits host chance (id + 1) (n + 1) kept rest

theorem fits_refused {chance : Nat → Supply} {id : UInt64} {h : Holdings} {k : Call} {rest : List Call} {e : Failure}
    (refused : k.request = .error e) : Fits host chance id n h (k :: rest) ↔ Fits host chance id n h rest := by
  rw [Fits, refused]

theorem fits_made {chance : Nat → Supply} {id : UInt64} {h : Holdings} {k : Call} {rest : List Call} {r : Request}
    (made : k.request = .ok r) : Fits host chance id n h (k :: rest) ↔
      (RequestFrame.codec.encode ⟨id, r⟩).length ≤ min host.limit Settings.usualFrameLimit ∧
        (ResponseFrame.codec.encode ⟨id, (host.service.handle (chance n) h r).1⟩).length ≤
          min host.limit Settings.usualFrameLimit ∧
        Fits host chance (id + 1) (n + 1) (host.service.handle (chance n) h r).2 rest := by
  rw [Fits, made]

instance decidableFits (host : Host) (chance : Nat → Supply) :
    (id : UInt64) → (n : Nat) → (h : Holdings) → (calls : List Call) → Decidable (Fits host chance id n h calls)
  | _, _, _, [] => isTrue trivial
  | id, n, h, k :: rest =>
    match made : k.request with
    | .error _ =>
      have := decidableFits host chance id n h rest
      decidable_of_iff _ (fits_refused made).symm
    | .ok r =>
      have := decidableFits host chance (id + 1) (n + 1) (host.service.handle (chance n) h r).2 rest
      decidable_of_iff _ (fits_made made).symm

structure Paired (host : Host) (c : Client) (d : Connection) : Prop where
  opened : d.session.state = .authenticated
  client : c.stream.Idle Settings.usualFrameLimit
  server : d.stream.Idle host.limit

theorem Paired.call {k : Call} {r : Request} (paired : Paired host c d) (made : k.request = .ok r)
    (fits : (RequestFrame.codec.encode ⟨c.next, r⟩).length ≤ min host.limit Settings.usualFrameLimit)
    (writable : (host.service.handle (chance n 0) held r).1.Writable)
    (short : (ResponseFrame.codec.encode ⟨c.next, (host.service.handle (chance n 0) held r).1⟩).length ≤
      min host.limit Settings.usualFrameLimit) :
    ∃ told stream e, c.call (Connection.peer host chance) k (n, d, held) =
        (some told, { c with stream, next := c.next + 1 }, n + 1, e, (k.direct host.service (chance n 0) held).2) ∧
      Call.Alike told (k.direct host.service (chance n 0) held).1 ∧
      Paired host { c with stream, next := c.next + 1 } e := by
  obtain ⟨opened, client, server⟩ := paired
  have inside : host.limitIn d.session = host.limit := by simp [Host.limitIn, Session.isAuthenticated, opened]
  have open_ : d.session.state ≠ .closed := by
    rw [opened]
    decide
  have heard := Session.hear_request host (chance n 0) held opened
    (RequestFrame.codec_faithful ⟨c.next, r⟩).decode_encode (k.request_ne_auth made)
  rw [← inside] at server fits short
  obtain ⟨stream, rest, asked, after, idle⟩ :=
    ask_idle open_ server client fits heard open_ writable short
  obtain ⟨same, alike⟩ := handle_direct made host.service (chance n 0) held
  rw [inside] at idle
  refine ⟨_, stream, ⟨rest, d.session⟩, ?_, alike, ⟨opened, after, idle⟩⟩
  simp only [Client.call, made, asked, Option.map_some, accept_same, same]

theorem direct_refused {k : Call} {e : Failure} (refused : k.request = .error e) (s : Service) (supply : Supply)
    (h : Holdings) : k.direct s supply h = (.error e, h) := by
  cases k with
  | put | get | delete | contains =>
    have unnamed := Except.map_eq_error.mp refused
    simp only [Call.direct, unnamed, Except.bind, Except.map]
  | list | count | clear | save | ping => cases refused

theorem Paired.run {calls : List Call} (paired : Paired host c d) (timely : held.vault.Timely)
    (clock : ∀ n, ∃ text, Instant.ofText text = .ok (chance n 0).draw.now)
    (room : held.vault.count + calls.length < UInt64.size)
    (fits : Fits host (fun n => chance n 0) c.next n held calls) :
    let told := runOn (fun p k => p.1.call (Connection.peer host chance) k p.2) (c, n, d, held) calls
    let direct := runOn (Call.directly host.service fun n => chance n 0) (n, held) calls
    List.Forall₂ (fun k p => Call.Answered k p.1 p.2) calls (told.1.zip direct.1) ∧
      told.2.2.2.2 = direct.2.2 := by
  induction calls generalizing c n d held with
  | nil => exact ⟨.nil, rfl⟩
  | cons k calls ih =>
    rw [List.length_cons] at room
    cases made : k.request with
    | error e =>
      have skipped : c.call (Connection.peer host chance) k (n, d, held) = (some (.error e), c, n, d, held) := by
        simp only [Client.call, made]
      have refused : Call.directly host.service (fun n => chance n 0) (n, held) k = (.error e, n, held) := by
        simp only [Call.directly, direct_refused made, made, Except.isOk, Except.toBool, Bool.false_eq_true,
          if_false]
      obtain ⟨rest, last⟩ := ih paired timely (by omega) ((fits_refused made).mp fits)
      simp only [runOn, skipped, refused]
      refine ⟨.cons ?_ rest, last⟩
      simp only [Call.Answered, made, and_self]
    | ok r =>
      obtain ⟨sending, answering, later⟩ := (fits_made made).mp fits
      have writable := host.service.handle_writable (chance n 0) timely (by omega) r
      obtain ⟨told, stream, e, called, alike, paired⟩ := paired.call made sending writable answering
      have direct : Call.directly host.service (fun n => chance n 0) (n, held) k =
          ((k.direct host.service (chance n 0) held).1, n + 1, (k.direct host.service (chance n 0) held).2) := by
        simp only [Call.directly, made, Except.isOk, Except.toBool, if_true]
      have kept := (handle_direct made host.service (chance n 0) held).1
      have vault : (k.direct host.service (chance n 0) held).2.vault = held.vault.after (chance n 0).draw r := by
        rw [← kept, Service.handle_vault]
      have punctual : (k.direct host.service (chance n 0) held).2.vault.Timely := vault ▸ timely.after (clock n) r
      have roomy : (k.direct host.service (chance n 0) held).2.vault.count + calls.length < UInt64.size := by
        have grown := Vault.count_after held.vault (chance n 0).draw r
        rw [vault]
        omega
      rw [kept] at later
      obtain ⟨rest, last⟩ := ih paired punctual roomy later
      simp only [runOn, called, direct]
      refine ⟨.cons ?_ rest, last⟩
      simp only [Call.Answered, made]
      exact ⟨told, rfl, alike⟩

/-- The frames by which a client introduces itself keep to the limits of both sides. -/
def Greets (host : Host) (password : String) (s : Session) : Prop :=
  (RequestFrame.codec.encode ⟨1, .auth password⟩).length ≤ min host.strangerLimit Settings.usualFrameLimit ∧
    (ResponseFrame.codec.encode ⟨1, .authenticated s.handle⟩).length ≤ min host.limit Settings.usualFrameLimit

instance (host : Host) (password : String) (s : Session) : Decidable (Greets host password s) :=
  inferInstanceAs (Decidable (_ ∧ _))

theorem connect_paired (chance : Nat → Nat → Supply) (held : Holdings) {network : Network} {address : Address}
    {password : String} {s : Session}
    (reached : network.reach address = .ok ()) (known : host.gateway = .ofPassword (Bytes.ofText password))
    (unopened : s.state = .unauthenticated) (greets : Greets host password s) :
    ∃ client e, connect network address (Connection.peer host chance) password (0, .accept host s, held) =
        (some (.ok client), 1, e, held) ∧ client.next = 2 ∧ Paired host client e := by
  obtain ⟨sending, answering⟩ := greets
  have right : host.gateway.verify (Bytes.ofText password) = true := by
    simp [known, Gateway.verify, Gateway.ofPassword]
  have outside : host.limitIn s = host.strangerLimit := by simp [Host.limitIn, Session.isAuthenticated, unopened]
  have inside : host.limitIn { s with state := .authenticated } = host.limit := by
    simp [Host.limitIn, Session.isAuthenticated]
  have opened : s.state ≠ .closed := by
    rw [unopened]
    decide
  have going : SessionState.authenticated ≠ .closed := by decide
  have heard := Session.hear_password (chance 0 0) held unopened right
    (RequestFrame.codec_faithful ⟨1, .auth password⟩).decode_encode
  rw [← outside] at sending
  rw [← inside] at answering
  obtain ⟨stream, rest, asked, after, idle⟩ := ask_idle (d := .accept host s) (c := fresh) opened
    (outside ▸ Stream.idle_fresh host.strangerLimit) (Stream.idle_fresh _) sending heard going trivial answering
  rw [inside] at idle
  refine ⟨⟨stream, 2, s.handle⟩, ⟨rest, { s with state := .authenticated }⟩, ?_, rfl, ⟨rfl, after, idle⟩⟩
  simp only [connect, reached, asked]
  rfl

/-- Calls over a connection that was opened with the right password: each gives the reply that it gives
directly, or a failure of the same kind, and the vault ends up the same; a name that is refused is refused at
once, and nothing is sent. -/
theorem calls_are_direct {network : Network} {address : Address} {host : Host} {password : String}
    {handle : Bytes.Sized 16} {origin : Address} {chance : Nat → Nat → Supply} {held : Holdings} {calls : List Call}
    (reached : network.reach address = .ok ()) (known : host.gateway = .ofPassword (Bytes.ofText password))
    (greets : Greets host password (.start handle origin))
    (fits : Fits host (fun n => chance n 0) 2 1 held calls) (timely : held.vault.Timely)
    (clock : ∀ n, ∃ text, Instant.ofText text = .ok (chance n 0).draw.now)
    (room : held.vault.count + calls.length < UInt64.size) :
    let peer := Connection.peer host chance
    ∃ client s, connect network address peer password (0, .accept host (.start handle origin), held) =
        (some (.ok client), s) ∧
      let told := runOn (fun p k => p.1.call peer k p.2) (client, s) calls
      let direct := runOn (Call.directly host.service fun n => chance n 0) (1, held) calls
      List.Forall₂ (fun k p => Call.Answered k p.1 p.2) calls (told.1.zip direct.1) ∧
        told.2.2.2.2 = direct.2.2 ∧
        ∀ k e, k.request = .error e → ∀ c s, call peer k c s = (some (.error e), c, s) := by
  intro peer
  obtain ⟨client, e, connected, number, paired⟩ :=
    connect_paired chance held reached known rfl greets
  obtain ⟨answered, last⟩ := paired.run timely clock room (number ▸ fits)
  refine ⟨client, _, connected, answered, last, ?_⟩
  intro k e refused c s
  simp only [call, refused]

def eightCalls : List Call :=
  [.put "" [1] .empty, .put "a" [1, 2, 3] .empty, .get "a", .get "b", .delete "a", .list, .count, .ping]

theorem calls_are_direct_eight :
    let network := Network.ready
    let address : Address := .four [127, 0, 0, 1] 5000
    let host : Host := ⟨.ofPassword (Bytes.ofText "p"), ⟨.plain, false⟩, 4096, .plain⟩
    let handle : Bytes.Sized 16 := ⟨List.replicate 16 0, rfl⟩
    let origin : Address := .four [127, 0, 0, 1] 5001
    let chance : Nat → Nat → Supply := fun _ _ => ⟨.plain, .plain, .smooth⟩
    let held : Holdings := ⟨.plain Draw.plain.salt, .empty .root⟩
    network.reach address = .ok () ∧ host.gateway = .ofPassword (Bytes.ofText "p") ∧
      Greets host "p" (.start handle origin) ∧ Fits host (fun n => chance n 0) 2 1 held eightCalls ∧
      held.vault.Timely ∧ (∀ n, ∃ text, Instant.ofText text = .ok (chance n 0).draw.now) ∧
      held.vault.count + eightCalls.length < UInt64.size ∧
      let peer := Connection.peer host chance
      ∃ client s, connect network address peer "p" (0, .accept host (.start handle origin), held) =
          (some (.ok client), s) ∧
        let told := runOn (fun p k => p.1.call peer k p.2) (client, s) eightCalls
        let direct := runOn (Call.directly host.service fun n => chance n 0) (1, held) eightCalls
        List.Forall₂ (fun k p => Call.Answered k p.1 p.2) eightCalls (told.1.zip direct.1) ∧
          told.2.2.2.2 = direct.2.2 ∧
          ∀ k e, k.request = .error e → ∀ c s, call peer k c s = (some (.error e), c, s) := by
  intro network address host handle origin chance held
  have greets : Greets host "p" (.start handle origin) := by decide +kernel
  have fits : Fits host (fun n => chance n 0) 2 1 held eightCalls := by decide +kernel
  have timely : held.vault.Timely := nofun
  have clock : ∀ n, ∃ text, Instant.ofText text = .ok (chance n 0).draw.now :=
    fun _ => Instant.valid_iff.mp (by decide)
  have room : held.vault.count + eightCalls.length < UInt64.size := by decide
  have direct := @calls_are_direct network address host "p" handle origin chance held eightCalls rfl rfl greets
    fits timely clock room
  exact ⟨rfl, rfl, greets, fits, timely, clock, room, direct⟩

end Client

end Custody
