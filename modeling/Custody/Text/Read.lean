/-!
Reading values off the head of a text. A reader gives what it read and the rest of the text, or
nothing; readers are put together by order, choice and repetition.
-/

namespace Custody.Text

/-- Reads a value off the head of a text. -/
def Read (α : Type) := List Char → Option (α × List Char)

namespace Read

def done {α : Type} (a : α) : Read α := fun s => some (a, s)

def refuse {α : Type} : Read α := fun _ => none

def andThen {α β : Type} (r : Read α) (f : α → Read β) : Read β := fun s =>
  (r s).bind fun (a, s) => f a s

instance : Monad Read where
  pure := done
  bind := andThen

def orElse {α : Type} (r q : Read α) : Read α := fun s =>
  match r s with
  | some a => some a
  | none => q s

def one (p : Char → Bool) : Read Char
  | c :: s => if p c then some (c, s) else none
  | [] => none

def mark (c : Char) : Read Unit := do
  let _ ← one (· == c)

def word : List Char → Read Unit
  | [] => done ()
  | c :: w => do
    mark c
    word w

def run (p : Char → Bool) : Read (List Char) := fun s => some (s.takeWhile p, s.dropWhile p)

def someOf (p : Char → Bool) : Read (List Char) := do
  let c ← one p
  let cs ← run p
  pure (c :: cs)

def exactly (p : Char → Bool) : Nat → Read (List Char)
  | 0 => done []
  | n + 1 => do
    let c ← one p
    let cs ← exactly p n
    pure (c :: cs)

def optional {α : Type} (r : Read α) : Read (Option α) := fun s =>
  match r s with
  | some (a, s) => some (some a, s)
  | none => some (none, s)

/-- Repeats a reader until it refuses, at most as often as a text has characters. -/
def repeated {α : Type} (r : Read α) : List Char → Read (List α)
  | [] => done []
  | _ :: bound => fun s =>
    match r s with
    | none => some ([], s)
    | some (a, t) => (repeated r bound t).map fun (l, t) => (a :: l, t)

/-- Repeats a reader until it refuses. It has to take at least one character whenever it reads. -/
def many {α : Type} (r : Read α) : Read (List α) := fun s => repeated r s s

def atEnd : Read Unit
  | [] => some ((), [])
  | _ => none

def skip {α : Type} (r : Read α) : Read Unit := do
  let _ ← r

def whole? {α : Type} (r : Read α) (s : List Char) : Option α :=
  match r s with
  | some (a, []) => some a
  | _ => none

end Read

end Custody.Text
