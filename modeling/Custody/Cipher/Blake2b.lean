import Custody.Bytes
import Custody.Cipher.Square

/-!
The BLAKE2b hash function, without a key, for digests of 1 to 64 bytes. A message is hashed in blocks
of 128 bytes; each is mixed into eight chained words in twelve rounds.
-/

namespace Custody.Blake2b

def start : Vector UInt64 8 := #v[
  0x6a09e667f3bcc908, 0xbb67ae8584caa73b, 0x3c6ef372fe94f82b, 0xa54ff53a5f1d36f1,
  0x510e527fade682d1, 0x9b05688c2b3e6c1f, 0x1f83d9abfb41bd6b, 0x5be0cd19137e2179]

/-- The two words of a block that each of ten rounds mixes in along each line of the square. -/
def order : List (List (Nat × Nat)) := [
  [(0, 1), (2, 3), (4, 5), (6, 7), (8, 9), (10, 11), (12, 13), (14, 15)],
  [(14, 10), (4, 8), (9, 15), (13, 6), (1, 12), (0, 2), (11, 7), (5, 3)],
  [(11, 8), (12, 0), (5, 2), (15, 13), (10, 14), (3, 6), (7, 1), (9, 4)],
  [(7, 9), (3, 1), (13, 12), (11, 14), (2, 6), (5, 10), (4, 0), (15, 8)],
  [(9, 0), (5, 7), (2, 4), (10, 15), (14, 1), (11, 12), (6, 8), (3, 13)],
  [(2, 12), (6, 10), (0, 11), (8, 3), (4, 13), (7, 5), (15, 14), (1, 9)],
  [(12, 5), (1, 15), (14, 13), (4, 10), (0, 7), (6, 3), (9, 2), (8, 11)],
  [(13, 11), (7, 14), (12, 1), (3, 9), (5, 0), (15, 4), (8, 6), (2, 10)],
  [(6, 15), (14, 9), (11, 3), (0, 8), (12, 2), (13, 7), (1, 4), (10, 5)],
  [(10, 2), (8, 4), (7, 6), (1, 5), (15, 11), (9, 14), (3, 12), (13, 0)]]

def rotate (x : UInt64) (n : UInt64) : UInt64 := (x >>> n) ||| (x <<< (64 - n))

def mix (x y a b c d : UInt64) : UInt64 × UInt64 × UInt64 × UInt64 :=
  let a := a + b + x
  let d := rotate (d ^^^ a) 32
  let c := c + d
  let b := rotate (b ^^^ c) 24
  let a := a + b + y
  let d := rotate (d ^^^ a) 16
  let c := c + d
  (a, rotate (b ^^^ c) 63, c, d)

def round (m v : Square UInt64) (o : List (Nat × Nat)) : Square UInt64 :=
  let word (i : Nat) := m.toArray.getD i 0
  (Square.lines.zip o).foldl (fun v (l, i, j) => v.mixAlong (mix (word i) (word j)) l) v

/-- Mixes a block into the chained words; `count` bytes have been hashed with it. -/
def compress (h : Vector UInt64 8) (block : Square UInt64) (count : Nat) (last : Bool) :
    Vector UInt64 8 :=
  let v := h ++ start
  let v := v.set 12 (v[12] ^^^ count.toUInt64)
  let v := v.set 13 (v[13] ^^^ (count / UInt64.size).toUInt64)
  let v := if last then v.set 14 (v[14] ^^^ 0xffffffffffffffff) else v
  let v := (order ++ order.take 2).foldl (round block) v
  Vector.ofFn fun i => h[i] ^^^ v[i.val] ^^^ v[i.val + 8]

/-- The words of a block; a block that is too short is filled up with zeros. -/
def words (b : Bytes) : Square UInt64 :=
  Vector.ofFn fun i => (Bytes.ofLittleEndian ((b.drop (8 * i)).take 8)).toUInt64

def absorb (h : Vector UInt64 8) (count : Nat) (message : Bytes) : Vector UInt64 8 :=
  let rest := message.drop 128
  if rest = [] then compress h (words message) (count + message.length) true
  else absorb (compress h (words (message.take 128)) (count + 128) false) (count + 128) rest
termination_by message.length
decreasing_by
  rename_i h
  have := List.length_pos_iff.mpr h
  simp only [rest, List.length_drop] at *
  omega

def digest (size : Nat) (message : Bytes) : Bytes :=
  let h := start.set 0 (start[0] ^^^ 0x01010000 ^^^ size.toUInt64)
  ((absorb h 0 message).toList.flatMap fun w => Bytes.littleEndian 8 w.toNat).take size

@[simp] theorem length_digest {size : Nat} (message : Bytes) (h : size ≤ 64 := by decide) :
    (digest size message).length = size := by
  simp [digest, List.length_flatMap, List.map_const']
  omega

end Custody.Blake2b
