import Custody.Json.Canonical
import Custody.Wire.Frame

/-!
Streams of messages, as one end of a connection sees them. Bytes that arrive wait until they are
taken in; a message is looked for when there is something new to look at. After trouble the stream
reports its end once, and looks again when more bytes or the end of the connection arrive.
-/

namespace Custody

inductive Receipt (α : Type) where
  | message (a : α)
  /-- The stream is at its end, for now or for good. -/
  | finished
  /-- Nothing has come yet. -/
  | pending
  | failed (e : Failure)

/-- What a look may yield: a message leaves less to be found, trouble is trouble of the connection,
and nothing adds to what is to be found. -/
def Receipt.Fair (before after : Nat) : Receipt Bytes → Prop
  | .message _ => after < before
  | .failed e => after ≤ before ∧ ∃ t, e = .io t
  | _ => after ≤ before

theorem Receipt.Fair.mono {a b c : Nat} {r : Receipt Bytes} (h : r.Fair b c) (le : b ≤ a) :
    r.Fair a c := by
  cases r with
  | message b => exact Nat.lt_of_lt_of_le h le
  | failed e => exact ⟨Nat.le_trans h.1 le, h.2⟩
  | finished => exact Nat.le_trans h le
  | pending => exact Nat.le_trans h le

structure Inlet where
  waiting : Bytes
  closed : Bool
  intake : Intake
  /-- There may be a frame to be found in the intake. -/
  ready : Bool
  ended : Bool
  /-- The last look ended in trouble. -/
  troubled : Bool

namespace Inlet

def fresh : Inlet := ⟨[], false, .empty, false, false, false⟩

def feed (i : Inlet) (b : Bytes) : Inlet := { i with waiting := i.waiting ++ b }

def finish (i : Inlet) : Inlet := { i with closed := true }

/-- A bound on the frames that are still to be found. -/
def weight (i : Inlet) : Nat := 2 * i.waiting.length + i.intake.weight

/-- Looks for a frame in the intake. There is no receipt if more bytes are needed. -/
def look (limit : Nat) (i : Inlet) : Option (Receipt Bytes) × Inlet :=
  if !i.ready then (none, i)
  else
    match i.intake.head limit with
    | .error t => (some (.failed (.io t)), { i with troubled := true })
    | .ok p =>
      match p.body? with
      | some (b, rest) => (some (.message b), { i with intake := rest })
      | none =>
        if !i.ended then (none, { i with intake := p, ready := false })
        else if p.buffer = [] then (some .finished, { i with intake := p, ready := false })
        else (some (.failed (.io Frame.cutOff)), { i with intake := p, troubled := true })

def takeIn (i : Inlet) : Inlet :=
  let (intake, waiting) := i.intake.takeIn i.waiting
  { i with waiting, intake, ready := true, ended := false }

def takeEnd (i : Inlet) : Inlet :=
  if i.closed && !i.ended then { i with ready := true, ended := true } else i

def rest (i : Inlet) : Receipt Bytes := if i.closed then .finished else .pending

theorem look_waiting {limit : Nat} {i j : Inlet} {r : Option (Receipt Bytes)}
    (h : i.look limit = (r, j)) : j.waiting = i.waiting := by
  unfold look at h
  split at h
  · cases h; rfl
  · split at h
    · cases h; rfl
    · split at h
      · cases h; rfl
      · split at h
        · cases h; rfl
        · split at h <;> (cases h; rfl)

/-- Looks at what was taken in, then takes in more of what is waiting, then looks at the end. -/
def seek (limit : Nat) (i : Inlet) : Receipt Bytes × Inlet :=
  match h : i.look limit with
  | (some r, j) => (r, j)
  | (none, j) =>
    if h' : j.waiting = [] then
      match j.takeEnd.look limit with
      | (some r, j) => (r, j)
      | (none, j) => (j.rest, j)
    else
      have : j.takeIn.waiting.length < i.waiting.length :=
        look_waiting h ▸ Intake.takeIn_less j.intake h'
      j.takeIn.seek limit
termination_by i.waiting.length

/-- Asks for the next body. After trouble there is none, once. -/
def receive (limit : Nat) (i : Inlet) : Receipt Bytes × Inlet :=
  if i.troubled then (.finished, { i with ready := false, troubled := false }) else i.seek limit

theorem look_fair {limit : Nat} {i j : Inlet} {r : Receipt Bytes}
    (h : i.look limit = (some r, j)) : r.Fair i.weight j.weight := by
  unfold look at h
  split at h
  · cases h
  · split at h
    · rename_i t _
      cases h
      exact ⟨Nat.le_refl _, t, rfl⟩
    · rename_i p accepted
      have lighter := Intake.weight_head accepted
      split at h
      · rename_i b rest taken
        cases h
        have less := Intake.weight_body? taken
        simp only [Receipt.Fair, weight]
        omega
      · split at h
        · cases h
        · split at h
          · cases h
            simp only [Receipt.Fair, weight]
            omega
          · cases h
            simp only [Receipt.Fair, weight]
            exact ⟨by omega, _, rfl⟩

theorem look_weight {limit : Nat} {i j : Inlet} (h : i.look limit = (none, j)) :
    j.weight ≤ i.weight := by
  unfold look at h
  split at h
  · cases h; exact Nat.le_refl _
  · split at h
    · cases h
    · rename_i p accepted
      have lighter := Intake.weight_head accepted
      split at h
      · cases h
      · split at h
        · cases h
          simp only [weight]
          omega
        · split at h <;> cases h

theorem takeIn_weight (i : Inlet) : i.takeIn.weight = i.weight := Intake.weight_takeIn i.intake i.waiting

theorem takeEnd_weight (i : Inlet) : i.takeEnd.weight = i.weight := by
  unfold takeEnd
  split <;> rfl

theorem seek_fair (limit : Nat) (i : Inlet) :
    (i.seek limit).1.Fair i.weight (i.seek limit).2.weight := by
  fun_induction seek limit i with
  | case1 i r j h => exact look_fair h
  | case2 i j h none r k found =>
    exact (look_fair found).mono (takeEnd_weight j ▸ look_weight h)
  | case3 i j h none k nothing =>
    have le := Nat.le_trans (takeEnd_weight j ▸ look_weight nothing) (look_weight h)
    unfold rest
    split <;> exact le
  | case4 i j h more _ ih => exact ih.mono (takeIn_weight j ▸ look_weight h)

theorem receive_fair (limit : Nat) (i : Inlet) :
    (i.receive limit).1.Fair i.weight (i.receive limit).2.weight := by
  unfold receive
  split
  · exact Nat.le_refl _
  · exact seek_fair limit i

end Inlet

structure Outlet where
  sent : Bytes
  unsent : Bytes
  closed : Bool
  broken : Bool

namespace Outlet

def fresh : Outlet := ⟨[], [], false, false⟩

/-- How many unsent bytes may pile up before another message is accepted. -/
def room : Nat := 8192

def flush (o : Outlet) : Except Failure Outlet :=
  if o.unsent = [] then .ok o
  else if o.closed || o.broken then .error (.io (.system .brokenPipe))
  else .ok { o with sent := o.sent ++ o.unsent, unsent := [] }

/-- Sends a body; one beyond the limit is refused and leaves no trace. -/
def send (limit : Nat) (o : Outlet) (body : Bytes) : Except Failure Unit × Outlet :=
  let start := if o.unsent.length < room then .ok o else o.flush
  match start with
  | .error e => (.error e, o)
  | .ok o =>
    if limit < body.length then (.error (.io (Frame.tooBig .invalidInput)), o)
    else
      let o := { o with unsent := o.unsent ++ Frame.encode body }
      match o.flush with
      | .ok o => (.ok (), o)
      | .error e => (.error e, o)

/-- Sends no more. This fails only if there are unsent bytes that cannot be sent. -/
def close (o : Outlet) : Except Failure Unit × Outlet :=
  match o.flush with
  | .error e => (.error e, o)
  | .ok o => (.ok (), { o with closed := true })

def collect (o : Outlet) : Bytes × Outlet := (o.sent, { o with sent := [] })

end Outlet

structure Stream where
  limit : Nat
  inlet : Inlet
  outlet : Outlet

namespace Stream

def fresh (limit : Nat) : Stream := ⟨limit, .fresh, .fresh⟩

def feed (s : Stream) (b : Bytes) : Stream := { s with inlet := s.inlet.feed b }

def finish (s : Stream) : Stream := { s with inlet := s.inlet.finish }

def hangUp (s : Stream) : Stream := { s.finish with outlet := { s.outlet with broken := true } }

/-- Asks for the next message. A body that is no message costs that frame only. -/
def receive {α : Type} (c : Json.Codec α) (s : Stream) (wording : Json.Wording := .plain) :
    Receipt α × Stream :=
  let (r, inlet) := s.inlet.receive s.limit
  let r := match r with
    | .finished => .finished
    | .pending => .pending
    | .failed e => .failed e
    | .message body =>
      match c.decode body with
      | .ok a => .message a
      | .error fault => .failed (.protocol ("malformed message: " ++ wording body fault))
  (r, { s with inlet })

/-- Whatever costs a frame leaves less to be found. -/
theorem receive_weight {α : Type} {c : Json.Codec α} {wording : Json.Wording} {s t : Stream} {r : Receipt α}
    (h : s.receive c wording = (r, t)) (frame : (∃ a, r = .message a) ∨ ∃ why, r = .failed (.protocol why)) :
    t.inlet.weight < s.inlet.weight := by
  have fair := Inlet.receive_fair s.limit s.inlet
  unfold receive at h
  split at h
  rename_i r₀ i found
  rw [found] at fair
  cases h
  cases r₀ with
  | message b => exact fair
  | finished => simp at frame
  | pending => simp at frame
  | failed e =>
    obtain ⟨t, rfl⟩ := fair.2
    simp at frame

def send {α : Type} (c : Json.Codec α) (s : Stream) (a : α) : Except Failure Unit × Stream :=
  let (r, outlet) := s.outlet.send s.limit (c.encode a)
  (r, { s with outlet })

def close (s : Stream) : Except Failure Unit × Stream :=
  let (r, outlet) := s.outlet.close
  (r, { s with outlet })

def collect (s : Stream) : Bytes × Stream :=
  let (b, outlet) := s.outlet.collect
  (b, { s with outlet })

end Stream

end Custody
