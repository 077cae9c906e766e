import Custody.Bytes
import Custody.Failure
import Custody.Wire.Room

/-!
Frames: messages one after another in a stream of bytes. A frame is the length of its body, in four
bytes, and the body. A limit bounds the bodies that are accepted; a body whose head was accepted is
awaited whatever becomes of the limit.
-/

namespace Custody

namespace Frame

def headLength : Nat := 4

def encode (body : Bytes) : Bytes := Bytes.bigEndian headLength body.length ++ body

def tooBig (kind : IoKind) : IoTrouble := .reported kind "frame size too big"

def cutOff : IoTrouble := .reported .other "bytes remaining on stream"

end Frame

structure Intake where
  buffer : Bytes
  /-- The length of the body that is awaited, once its head was accepted. -/
  due : Option Nat
  room : Room

namespace Intake

def empty : Intake := ⟨[], none, .start⟩

/-- A bound on the frames that an intake still holds. -/
def weight (p : Intake) : Nat := 2 * p.buffer.length + if p.due.isSome then 1 else 0

/-- Takes in as many bytes as there is room for, at least one, and gives back the others. -/
def takeIn (p : Intake) (b : Bytes) : Intake × Bytes :=
  let room := p.room.reserve p.buffer.length 1
  let n := room.free p.buffer.length
  ({ p with buffer := p.buffer ++ b.take n, room }, b.drop n)

/-- Takes off a head, if one is next and complete, and makes room for the body. -/
def head (limit : Nat) (p : Intake) : Except IoTrouble Intake :=
  if p.due.isSome || p.buffer.length < Frame.headLength then .ok p
  else
    let n := Bytes.ofBigEndian (p.buffer.take Frame.headLength)
    if n ≤ limit then
      let rest := p.buffer.drop Frame.headLength
      .ok ⟨rest, some n, (p.room.spend Frame.headLength).reserve rest.length (n - rest.length)⟩
    else .error (Frame.tooBig .invalidData)

/-- Takes off the body that is awaited, if it is complete, and makes room for the next head. -/
def body? (p : Intake) : Option (Bytes × Intake) :=
  match p.due with
  | some n =>
    if n ≤ p.buffer.length then
      let rest := p.buffer.drop n
      let room := (p.room.spend n).renew rest.length (Frame.headLength - rest.length)
      some (p.buffer.take n, ⟨rest, none, room⟩)
    else none
  | none => none

theorem weight_takeIn (p : Intake) (b : Bytes) :
    2 * (p.takeIn b).2.length + (p.takeIn b).1.weight = 2 * b.length + p.weight := by
  cases h : p.due <;>
    simp only [takeIn, weight, h, List.length_append, List.length_take, List.length_drop,
      Option.isSome_some, Option.isSome_none, if_true, Bool.false_eq_true, if_false] <;>
    omega

theorem takeIn_less (p : Intake) {b : Bytes} (some : b ≠ []) : (p.takeIn b).2.length < b.length := by
  have one := p.room.free_reserve p.buffer.length 1
  have long := List.length_pos_iff.2 some
  simp only [takeIn, List.length_drop]
  omega

theorem weight_head {limit : Nat} {p q : Intake} (h : p.head limit = .ok q) :
    q.weight ≤ p.weight := by
  unfold head at h
  split at h
  · cases h; exact Nat.le_refl _
  · rename_i c
    simp only [Bool.or_eq_true, decide_eq_true_eq, not_or, Nat.not_lt] at c
    simp only at h
    split at h
    · cases h
      have long := c.2
      simp only [weight, List.length_drop, Option.isSome_some, if_true, Frame.headLength] at *
      split <;> omega
    · cases h

theorem weight_body? {p q : Intake} {b : Bytes} (h : p.body? = some (b, q)) :
    q.weight < p.weight := by
  unfold body? at h
  split at h
  · rename_i n due
    split at h
    · cases h
      simp only [weight, due, List.length_drop, Option.isSome_some, Option.isSome_none, if_true,
        Bool.false_eq_true, if_false]
      omega
    · cases h
  · cases h

end Intake

end Custody
