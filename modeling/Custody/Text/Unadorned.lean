/-!
Texts that go to what is no terminal. Sequences that would steer a terminal are left out, and so are
control characters, except those that part words and lines.
-/

namespace Custody.Text

inductive Steering where
  | none
  /-- The escape character was met. -/
  | begun
  /-- One more character follows, behind signs between the blank and the slash. -/
  | single
  /-- Numbers follow, up to a letter. -/
  | numbers
  /-- Words follow, up to a bell or an escape character. -/
  | words
  /-- Anything follows, up to an escape character. -/
  | data
deriving DecidableEq, Repr

def isParting (c : Char) : Bool := c == '\t' || c == '\n' || c == '\x0c' || c == '\x0d'

def within (low high : Nat) (c : Char) : Bool := low ≤ c.toNat && c.toNat ≤ high

/-- What a character does to a sequence, and whether it is kept. -/
def Steering.step (s : Steering) (c : Char) : Steering × Bool :=
  if c == '\x1b' then (.begun, false)
  else if c == '\x18' || c == '\x1a' then (.none, false)
  else
    match s with
    | .none => (.none, isParting c || (32 ≤ c.toNat && c.toNat != 127))
    | .words => (if c == '\x07' then .none else .words, false)
    | .data => (.data, false)
    | .begun =>
      if isParting c then (.none, true)
      else if c == '[' then (.numbers, false)
      else if c == ']' then (.words, false)
      else if c == 'P' || c == 'X' || c == '^' || c == '_' then (.data, false)
      else if within 0x20 0x2f c then (.single, false)
      else (if within 0x30 0x7e c then .none else .begun, false)
    | .single =>
      if isParting c then (.none, true)
      else (if within 0x30 0x7e c then .none else .single, false)
    | .numbers =>
      if isParting c then (.none, true)
      else (if within 0x40 0x7e c then .none else .numbers, false)

def kept (s : Steering) : List Char → List Char
  | [] => []
  | c :: rest =>
    let (next, keep) := s.step c
    if keep then c :: kept next rest else kept next rest

def unadorned (s : String) : String := String.ofList (kept .none s.toList)

end Custody.Text
