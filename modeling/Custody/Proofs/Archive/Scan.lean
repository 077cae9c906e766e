import Custody.Proofs.Archive.Format

/-!
Archives read by a cursor. A cursor stands at a place in a row of bytes and takes the next ones; where they are
not all there, it comes to nothing, and so does whatever depends on it. The length of the header is checked
before the cursor sets out, so it comes to something on every row of bytes, and to what `split` gives.
-/

namespace Custody

structure Cursor where
  bytes : Bytes
  place : Nat

namespace Cursor

def take? (n : Nat) (c : Cursor) : Option (Bytes.Sized n × Cursor) :=
  if inside : c.place + n ≤ c.bytes.length then
    some (⟨(c.bytes.drop c.place).take n, Archive.length_field inside⟩, { c with place := c.place + n })
  else none

def number? (n : Nat) (c : Cursor) : Option (Nat × Cursor) :=
  (c.take? n).map fun (part, c) => (Bytes.ofBigEndian part.val, c)

def passed? (c : Cursor) : Option Bytes :=
  if c.place ≤ c.bytes.length then some (c.bytes.take c.place) else none

def rest? (c : Cursor) : Option Bytes :=
  if c.place ≤ c.bytes.length then some (c.bytes.drop c.place) else none

end Cursor

namespace Archive

/-- Takes an archive apart with a cursor. There is no result if a byte beyond the end was asked for. -/
def scan (b : Bytes) : Option (Except Failure Parts) :=
  if b.length < headerLength then some (.error (.corrupt "dump header is truncated"))
  else
    (Cursor.take? 6 ⟨b, 0⟩).bind fun (name, c) =>
    if name.val ≠ magic then some (.error (.corrupt "not a dump file")) else
    (c.number? 2).bind fun (found, c) =>
    if found ≠ version then some (.error (.corrupt s!"unsupported dump version {found}")) else
    (c.number? 4).bind fun (memory, c) =>
    (c.number? 4).bind fun (time, c) =>
    (c.number? 4).bind fun (lanes, c) =>
    let cost : Cost := ⟨memory.toUInt32, time.toUInt32, lanes.toUInt32⟩
    if !cost.withinLimits then some (.error (.corrupt "kdf parameters out of range")) else
    (c.take? 32).bind fun (salt, c) =>
    c.passed?.bind fun preamble =>
    (c.take? 24).bind fun (nonce, c) =>
    (c.number? 8).bind fun (declared, c) =>
    c.rest?.bind fun body =>
    if body.length ≠ declared then
      some (.error (.corrupt s!"dump body is {body.length} bytes, header declares {declared}"))
    else some (.ok ⟨cost, salt, nonce, preamble, body⟩)

theorem scan_eq (b : Bytes) : scan b = some (split b) := by
  by_cases short : b.length < headerLength
  · rw [scan, if_pos short, split_of_short short]
  · have long := Nat.not_lt.mp short
    have inside : 84 ≤ b.length := long
    have take {place n next : Nat} (step : place + n = next) (fits : place + n ≤ b.length) :
        Cursor.take? n ⟨b, place⟩ = some (⟨(b.drop place).take n, length_field fits⟩, ⟨b, next⟩) := by
      rw [← step]
      exact dif_pos fits
    have number {place n next : Nat} (step : place + n = next) (fits : place + n ≤ b.length) :
        Cursor.number? n ⟨b, place⟩ = some (numberAt b place n, ⟨b, next⟩) := by
      rw [Cursor.number?, take step fits]
      rfl
    let p := partsIn b long
    have name := @take 0 6 6 rfl (by omega)
    have found := @number 6 2 8 rfl (by omega)
    have memory := @number 8 4 12 rfl (by omega)
    have time := @number 12 4 16 rfl (by omega)
    have lanes := @number 16 4 20 rfl (by omega)
    have salted : Cursor.take? 32 ⟨b, 20⟩ = some (p.salt, ⟨b, 52⟩) := take rfl (show 20 + 32 ≤ b.length by omega)
    have passed : Cursor.passed? ⟨b, 52⟩ = some (b.take 52) :=
      if_pos (show 52 ≤ b.length by omega)
    have nonced : Cursor.take? 24 ⟨b, 52⟩ = some (p.nonce, ⟨b, 76⟩) := take rfl (show 52 + 24 ≤ b.length by omega)
    have declared := @number 76 8 headerLength rfl (by omega)
    have rest : Cursor.rest? ⟨b, headerLength⟩ = some (b.drop headerLength) := if_pos long
    rw [split_of_long long]
    simp only [scan, short, if_false, name, found, memory, time, lanes, salted, passed, nonced, declared, rest,
      Option.bind_some, List.drop_zero, apply_ite some]
    rfl

end Archive

end Custody
