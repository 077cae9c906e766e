import Custody.Toml.Basic

/-!
Tables while they are put together. Dotted keys and headings both make tables on their way; what was
given as a whole may not be added to, and a table may be headed only once.
-/

namespace Custody.Toml

inductive Origin where
  /-- On the way of a heading to a table further in. -/
  | implied
  /-- On the way of a dotted key. -/
  | dotted
  /-- By a heading of its own. -/
  | headed
deriving DecidableEq, Repr

inductive Part where
  /-- A value given as a whole. -/
  | whole (v : Toml)
  | table (origin : Origin) (members : List (String × Part))
  /-- Tables in a row, under headings of one name. -/
  | rows (tables : List (List (String × Part)))

abbrev Parts := List (String × Part)

mutual

def Part.value : Part → Toml
  | .whole v => v
  | .table _ members => .table (Part.values members)
  | .rows tables => .array (Part.tables tables)

def Part.values : List (String × Part) → List (String × Toml)
  | [] => []
  | (k, p) :: rest => (k, p.value) :: Part.values rest

def Part.tables : List (List (String × Part)) → List Toml
  | [] => []
  | t :: rest => .table (Part.values t) :: Part.tables rest

end

namespace Parts

def set (ms : Parts) (k : String) (p : Part) : Parts :=
  if (ms.lookup k).isSome then ms.map fun m => if m.1 == k then (k, p) else m else ms ++ [(k, p)]

def inLast (f : Parts → Option Parts) : List Parts → Option (List Parts)
  | [] => none
  | [t] => (f t).map ([·])
  | t :: rest => (inLast f rest).map (t :: ·)

/-- Adds a value under a dotted key. `fresh` tells whether the table may be added to by the last part
of the key. -/
def add (k : String) (v : Toml) : (fresh : Bool) → List String → Parts → Option Parts
  | fresh, [], ms =>
    if fresh && (ms.lookup k).isNone then some (ms ++ [(k, .whole v)]) else none
  | _, t :: path, ms =>
    match ms.lookup t with
    | none => (add k v true path []).map fun inner => ms.set t (.table .dotted inner)
    | some (.table origin inner) =>
      if origin = .headed then none
      else (add k v (origin = .dotted) path inner).map fun inner => ms.set t (.table origin inner)
    | some (.rows tables) => (inLast (add k v false path) tables).map fun l => ms.set t (.rows l)
    | some (.whole _) => none

def insert (ms : Parts) (key : List String) (v : Toml) : Option Parts :=
  match key.getLast? with
  | some k => add k v true key.dropLast ms
  | none => none

/-- Changes the table that a heading leads to, and makes the tables on its way. -/
def within (f : Parts → Option Parts) : List String → Parts → Option Parts
  | [], ms => f ms
  | t :: path, ms =>
    match ms.lookup t with
    | none => (within f path []).map fun inner => ms.set t (.table .implied inner)
    | some (.table origin inner) =>
      (within f path inner).map fun inner => ms.set t (.table origin inner)
    | some (.rows tables) => (inLast (within f path) tables).map fun l => ms.set t (.rows l)
    | some (.whole _) => none

def insertAll (ms : Parts) (pairs : List (List String × Toml)) : Option Parts :=
  pairs.foldlM (fun ms p => ms.insert p.1 p.2) ms

/-- Heads a table and adds its values. A table that was only implied so far moves to the end. -/
def headTable (k : String) (pairs : List (List String × Toml)) (ms : Parts) : Option Parts :=
  let rest := ms.filter fun m => m.1 != k
  match ms.lookup k with
  | none => (insertAll [] pairs).map fun inner => rest ++ [(k, .table .headed inner)]
  | some (.table .implied inner) =>
    (insertAll inner pairs).map fun inner => rest ++ [(k, .table .headed inner)]
  | some _ => none

def headRow (k : String) (pairs : List (List String × Toml)) (ms : Parts) : Option Parts :=
  match ms.lookup k with
  | none => (insertAll [] pairs).map fun inner => ms.set k (.rows [inner])
  | some (.rows tables) =>
    (insertAll [] pairs).map fun inner => ms.set k (.rows (tables ++ [inner]))
  | some _ => none

end Parts

end Custody.Toml
