/-!
Paths and places. A path is a text whose names are parted by slashes; which place it leads to depends on
the folders on the way. A place is known by the names from the root down, none of which is a dot or two.
-/

namespace Custody

/-- A place on a disk: the names from the root down. -/
structure Place where
  names : List String
deriving DecidableEq, Repr

namespace Place

def root : Place := ⟨[]⟩

def text (q : Place) : String := "/" ++ "/".intercalate q.names

def child (q : Place) (name : String) : Place := ⟨q.names ++ [name]⟩

/-- The folder that a place lies in; the root lies in itself. -/
def above (q : Place) : Place := ⟨q.names.dropLast⟩

/-- The places from the first below the root down to this one. -/
def line (q : Place) : List Place := (List.range q.names.length).map fun i => ⟨q.names.take (i + 1)⟩

/-- Follows a name: one dot stays, two dots go up, all others go down. -/
def step (q : Place) (name : String) : Place :=
  if name = "." then q else if name = ".." then q.above else q.child name

end Place

structure Path where
  text : String
deriving DecidableEq, Repr

namespace Path

def rooted (p : Path) : Bool := p.text.toList.head? == some '/'

/-- Tells whether a slash ends the path, so that it can only mean a folder. -/
def slashed (p : Path) : Bool := p.text.toList.getLast? == some '/'

def names (p : Path) : List String := ((p.text.toList.splitOn '/').map String.ofList).filter (· ≠ "")

def start (home : Place) (p : Path) : Place := if p.rooted then .root else home

/-- The place that a path leads to if every name on the way is a folder. -/
def place (home : Place) (p : Path) : Place := p.names.foldl Place.step (p.start home)

end Path

end Custody
