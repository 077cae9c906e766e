import Custody.Cipher.Blake2b
import Custody.Cost

/-!
Argon2id, version 1.3: a key derived from a password by filling a large memory. The memory is a row
of lanes; each lane is filled from left to right, in several passes and four slices a pass, and every
new block is compressed from the one before it and one chosen elsewhere.
-/

namespace Custody

namespace Argon2id

structure Quad where
  (a b c d : UInt64)

def low (x : UInt64) : UInt64 := x &&& 0xffffffff

/-- The sum of two words and twice the product of their low halves. -/
@[inline] def blend (x y : UInt64) : UInt64 := x + y + 2 * low x * low y

@[inline] def mix (p q r s : UInt64) : Quad :=
  let p := blend p q
  let s := Blake2b.rotate (s ^^^ p) 32
  let r := blend r s
  let q := Blake2b.rotate (q ^^^ r) 24
  let p := blend p q
  let s := Blake2b.rotate (s ^^^ p) 16
  let r := blend r s
  let q := Blake2b.rotate (q ^^^ r) 63
  ⟨p, q, r, s⟩

structure Row where
  (a b c d e f g h i j k l m n o p : UInt64)

namespace Row

def xor (x y : Row) : Row :=
  ⟨x.a ^^^ y.a, x.b ^^^ y.b, x.c ^^^ y.c, x.d ^^^ y.d, x.e ^^^ y.e, x.f ^^^ y.f, x.g ^^^ y.g,
    x.h ^^^ y.h, x.i ^^^ y.i, x.j ^^^ y.j, x.k ^^^ y.k, x.l ^^^ y.l, x.m ^^^ y.m, x.n ^^^ y.n,
    x.o ^^^ y.o, x.p ^^^ y.p⟩

/-- One round. The words are a square of four by four; its columns are mixed, then its diagonals. -/
def round (x : Row) : Row :=
  let ⟨a, e, i, m⟩ := mix x.a x.e x.i x.m
  let ⟨b, f, j, n⟩ := mix x.b x.f x.j x.n
  let ⟨c, g, k, o⟩ := mix x.c x.g x.k x.o
  let ⟨d, h, l, p⟩ := mix x.d x.h x.l x.p
  let ⟨a, f, k, p⟩ := mix a f k p
  let ⟨b, g, l, m⟩ := mix b g l m
  let ⟨c, h, i, n⟩ := mix c h i n
  let ⟨d, e, j, o⟩ := mix d e j o
  ⟨a, b, c, d, e, f, g, h, i, j, k, l, m, n, o, p⟩

def ofNumbers (w : Nat → UInt64) : Row :=
  ⟨w 0, w 1, w 2, w 3, w 4, w 5, w 6, w 7, w 8, w 9, w 10, w 11, w 12, w 13, w 14, w 15⟩

def words (x : Row) : List UInt64 :=
  [x.a, x.b, x.c, x.d, x.e, x.f, x.g, x.h, x.i, x.j, x.k, x.l, x.m, x.n, x.o, x.p]

end Row

/-- A block of memory: eight rows. -/
structure Block where
  (a b c d e f g h : Row)

namespace Block

def xor (x y : Block) : Block :=
  ⟨x.a.xor y.a, x.b.xor y.b, x.c.xor y.c, x.d.xor y.d, x.e.xor y.e, x.f.xor y.f, x.g.xor y.g,
    x.h.xor y.h⟩

def rounds (x : Block) : Block :=
  ⟨x.a.round, x.b.round, x.c.round, x.d.round, x.e.round, x.f.round, x.g.round, x.h.round⟩

@[inline] def column (x : Block) (u v : Row → UInt64) : Row :=
  ⟨u x.a, v x.a, u x.b, v x.b, u x.c, v x.c, u x.d, v x.d, u x.e, v x.e, u x.f, v x.f, u x.g, v x.g,
    u x.h, v x.h⟩

/-- The block whose rows are the columns of this one, each two words wide. -/
def turn (x : Block) : Block :=
  ⟨x.column (·.a) (·.b), x.column (·.c) (·.d), x.column (·.e) (·.f), x.column (·.g) (·.h),
    x.column (·.i) (·.j), x.column (·.k) (·.l), x.column (·.m) (·.n), x.column (·.o) (·.p)⟩

def ofNumbers (w : Nat → UInt64) : Block :=
  let row (n : Nat) := Row.ofNumbers fun k => w (16 * n + k)
  ⟨row 0, row 1, row 2, row 3, row 4, row 5, row 6, row 7⟩

def zero : Block := ofNumbers fun _ => 0

def words (x : Block) : List UInt64 :=
  [x.a, x.b, x.c, x.d, x.e, x.f, x.g, x.h].flatMap Row.words

end Block

/-- Compresses two blocks into one: a round over every row, then one over every column. -/
def compress (x y : Block) : Block :=
  let r := x.xor y
  r.xor r.rounds.turn.rounds.turn

def tagged (b : Bytes) : Bytes := Bytes.littleEndian 4 b.length ++ b

/-- The first halves of `count` digests, each of the one before it, and the last digest. -/
def chain : (count : Nat) → Bytes → List Bytes × Bytes
  | 0, v => ([], v)
  | n + 1, v =>
    let (halves, last) := chain n (Blake2b.digest 64 v)
    (v.take 32 :: halves, last)

def stretch (size : Nat) (message : Bytes) : Bytes :=
  let message := Bytes.littleEndian 4 size ++ message
  if size ≤ 64 then Blake2b.digest size message
  else
    let count := (size + 31) / 32 - 2
    let (halves, last) := chain (count - 1) (Blake2b.digest 64 message)
    halves.flatten ++ last.take 32 ++ Blake2b.digest (size - 32 * count) last

def Block.ofBytes (b : Bytes) : Block :=
  let octets := b.toArray
  .ofNumbers fun i => (Bytes.ofLittleEndian
    ((List.range 8).map fun k => octets.getD (8 * i + k) 0)).toUInt64

def Block.bytes (b : Block) : Bytes := b.words.flatMap fun w => Bytes.littleEndian 8 w.toNat

/-- The shape of the memory: lanes, and the length of a quarter of a lane. -/
structure Shape where
  passes : Nat
  lanes : Nat
  segment : Nat
  memory : Nat

namespace Shape

def ofCost (c : Cost) : Shape :=
  let p := c.parallelism.toNat
  ⟨c.time.toNat, p, c.memory.toNat / (4 * p), 4 * p * (c.memory.toNat / (4 * p))⟩

def lane (s : Shape) : Nat := 4 * s.segment

def place (s : Shape) (lane column : Nat) : Nat := lane * s.lane + column

end Shape

structure Segment where
  pass : Nat
  slice : Nat
  lane : Nat

/-- Tells whether the blocks of a segment are chosen without looking at the memory. -/
def Segment.independent (g : Segment) : Bool := g.pass = 0 && g.slice < 2

def variant : Nat := 2

/-- The block of choices with this number, for a segment that does not look at the memory. -/
def choices (s : Shape) (g : Segment) (number : Nat) : Block :=
  let head : List Nat := [g.pass, g.lane, g.slice, s.memory, s.passes, variant, number]
  let input : Block := .ofNumbers fun i => (head.getD i 0).toUInt64
  compress .zero (compress .zero input)

/-- The lane and column of the block that is compressed with the one before, by a random word. -/
def reference (s : Shape) (g : Segment) (index : Nat) (word : UInt64) : Nat × Nat :=
  let lane := if g.pass = 0 ∧ g.slice = 0 then g.lane else (word >>> 32).toNat % s.lanes
  let done := if g.pass = 0 then g.slice * s.segment else s.lane - s.segment
  let size :=
    if lane = g.lane then done + index - 1
    else if index = 0 then done - 1
    else done
  let x := (low word).toNat
  let offset := size - 1 - size * (x * x / UInt32.size) / UInt32.size
  let start := if g.pass = 0 ∨ g.slice = 3 then 0 else (g.slice + 1) * s.segment
  (lane, (start + offset) % s.lane)

def fillBlock (s : Shape) (g : Segment) (chosen : Array UInt64) (memory : Array Block)
    (index : Nat) : Array Block :=
  let column := g.slice * s.segment + index
  let previous := memory.getD (s.place g.lane ((column + s.lane - 1) % s.lane)) .zero
  let word := if g.independent then chosen.getD index 0 else previous.a.a
  let (lane, c) := reference s g index word
  let fresh := compress previous (memory.getD (s.place lane c) .zero)
  let here := s.place g.lane column
  memory.modify here fun old => if g.pass = 0 then fresh else fresh.xor old

/-- Fills a segment; the first two blocks of a lane are there from the start. -/
def fillSegment (s : Shape) (memory : Array Block) (g : Segment) : Array Block :=
  let chosen : Array UInt64 :=
    if g.independent then
      ((List.range ((s.segment + 127) / 128)).flatMap fun i => (choices s g (i + 1)).words).toArray
    else #[]
  let first := if g.pass = 0 ∧ g.slice = 0 then 2 else 0
  (List.range' first (s.segment - first)).foldl (fillBlock s g chosen) memory

def segments (s : Shape) : List Segment :=
  (List.range s.passes).flatMap fun pass =>
    (List.range 4).flatMap fun slice => (List.range s.lanes).map fun lane => ⟨pass, slice, lane⟩

/-- The memory before the first pass: two blocks at the head of each lane. -/
def startMemory (s : Shape) (seed : Bytes) : Array Block :=
  let head (lane column : Nat) : Block :=
    .ofBytes (stretch 1024 (seed ++ Bytes.littleEndian 4 column ++ Bytes.littleEndian 4 lane))
  (List.range s.lanes).foldl
    (fun m lane =>
      (m.modify (s.place lane 0) fun _ => head lane 0).modify (s.place lane 1)
        fun _ => head lane 1)
    (Array.replicate s.memory .zero)

def seed (c : Cost) (size : Nat) (password salt : Bytes) : Bytes :=
  let n (k : Nat) := Bytes.littleEndian 4 k
  Blake2b.digest 64
    (n c.parallelism.toNat ++ n size ++ n c.memory.toNat ++ n c.time.toNat ++ n 0x13 ++ n variant ++
      tagged password ++ tagged salt ++ tagged [] ++ tagged [])

def derive (c : Cost) (size : Nat) (password salt : Bytes) : Bytes :=
  let s := Shape.ofCost c
  let memory := (segments s).foldl (fillSegment s) (startMemory s (seed c size password salt))
  let last := (List.range s.lanes).foldl
    (fun b lane => b.xor (memory.getD (s.place lane (s.lane - 1)) .zero)) Block.zero
  stretch size last.bytes

@[simp] theorem length_derive (c : Cost) (password salt : Bytes) :
    (derive c 32 password salt).length = 32 := by
  simp [derive, stretch]

def flaw? (c : Cost) : Option String :=
  if c.memory.toNat < 8 ∨ c.memory.toNat < 8 * c.parallelism.toNat then
    some "memory cost is too small"
  else if c.time = 0 then some "time cost is too small"
  else if c.parallelism = 0 then some "not enough threads"
  else if 0xffffff < c.parallelism then some "too many threads"
  else none

/-- Longer passwords are refused: their length is hashed as a word of 32 bits. -/
def longestPassword : Nat := 0xFFFFFFFF

end Argon2id

end Custody
