import Custody.Toml.Assembly
import Custody.Toml.Scalar

/-!
Whole settings files. A file is read as a row of sections, each a heading with keys and values; the
sections are then put together into one table.
-/

namespace Custody.Toml

open Text (Read)
open Text.Read (mark word many optional skip refuse)

def item (value : Read Toml) : Read Toml := do
  filler
  let v ← value
  filler
  pure v

def listed (value : Read Toml) : Read Toml := do
  mark '['
  let first ← optional (item value)
  match first with
  | none =>
    filler
    mark ']'
    pure (.array [])
  | some v =>
    let more ← many do
      mark ','
      item value
    skip (optional (mark ','))
    filler
    mark ']'
    pure (.array (v :: more))

def pair (value : Read Toml) : Read (List String × Toml) := do
  let k ← key
  mark '='
  blanks
  let v ← value
  pure (k, v)

def braced (value : Read Toml) : Read Toml := do
  mark '\x7b'
  blanks
  let one : Read (List String × Toml) := do
    let p ← pair value
    blanks
    pure p
  let first ← optional one
  let more ← match first with
    | none => pure []
    | some _ => many do
      mark ','
      one
  mark '\x7d'
  match Parts.insertAll [] (first.toList ++ more) with
  | some ms => pure (.table (Part.values ms))
  | none => refuse

/-- A value, in which so many arrays and tables may stand one inside the other. -/
def value : Nat → Read Toml
  | 0 => Scalar.any
  | depth + 1 =>
    Scalar.any.orElse ((listed (value depth)).orElse (braced (value depth)))

inductive Heading where
  | table (path : List String)
  | row (path : List String)

inductive Line where
  | empty
  | heading (h : Heading)
  | pair (key : List String) (value : Toml)

def lineEnd : Read Unit := do
  blanks
  skip (optional comment)
  newline.orElse Text.Read.atEnd

def line : Read Line :=
  let blank : Read Line := do
    newline
    pure .empty
  let remark : Read Line := do
    comment
    newline.orElse Text.Read.atEnd
    pure .empty
  let row : Read Line := do
    word ['[', '[']
    let k ← key
    word [']', ']']
    lineEnd
    pure (.heading (.row k))
  let table : Read Line := do
    mark '['
    let k ← key
    mark ']'
    lineEnd
    pure (.heading (.table k))
  let setting : Read Line := do
    let (k, v) ← pair (value maxDepth)
    lineEnd
    pure (.pair k v)
  blank.orElse (remark.orElse (row.orElse (table.orElse setting)))

def lines : Read (List Line) := do
  skip (optional (mark (Char.ofNat 0xfeff)))
  blanks
  many do
    let l ← line
    blanks
    pure l

structure Section where
  heading : Option Heading
  pairs : List (List String × Toml)

def sections (heading : Option Heading) (pairs : List (List String × Toml)) :
    List Line → List Section
  | [] => [⟨heading, pairs⟩]
  | .empty :: rest => sections heading pairs rest
  | .pair k v :: rest => sections heading (pairs ++ [(k, v)]) rest
  | .heading h :: rest => ⟨heading, pairs⟩ :: sections (some h) [] rest

def Section.place (ms : Parts) (s : Section) : Option Parts :=
  match s.heading with
  | none => ms.insertAll s.pairs
  | some (.table path) =>
    match path.getLast? with
    | some k => Parts.within (Parts.headTable k s.pairs) path.dropLast ms
    | none => none
  | some (.row path) =>
    match path.getLast? with
    | some k => Parts.within (Parts.headRow k s.pairs) path.dropLast ms
    | none => none

def members? (s : String) : Option (List (String × Toml)) := do
  let ls ← lines.whole? s.toList
  let ms ← (sections none [] ls).foldlM Section.place []
  pure (Part.values ms)

end Custody.Toml
