import Custody.Bytes
import Custody.Catalog
import Custody.Disk.Path
import Custody.Failure

/-!
The files that the program can see: a tree of folders and files, in one of whose folders the program
works. Every name on the way of a path must lead to a folder; what is missing and what is no folder fail
in their own ways.
-/

namespace Custody

inductive Node where
  | file (content : Bytes)
  | folder
deriving DecidableEq, Repr

/-- All files and folders, by place. -/
structure Disk where
  home : Place
  nodes : Catalog (Prod.fst : String × Node → String)

namespace Disk

/-- What stands at a place; the root is a folder. -/
def at? (d : Disk) (q : Place) : Option Node :=
  if q = .root then some .folder else (d.nodes.find? q.text).map Prod.snd

def set (d : Disk) (q : Place) (n : Node) : Disk := { d with nodes := d.nodes.insert (q.text, n) }

def erase (d : Disk) (q : Place) : Disk := { d with nodes := d.nodes.erase q.text }

def setFolders (d : Disk) (q : Place) : Disk := q.line.foldl (fun d q => d.set q .folder) d

def empty (home : Place) : Disk := setFolders ⟨home, .empty⟩ home

def longestName : Nat := 255

def longestPath : Nat := 4095

/-- Why a path is refused unseen. -/
def flaw? (p : Path) : Option IoKind :=
  if p.text.toList.contains '\x00' then some .invalidName
  else if longestPath < p.text.utf8ByteSize then some .longName
  else none

/-- Follows names from a folder; each must lead to a folder. -/
def walk (d : Disk) (q : Place) : List String → Except IoTrouble Place
  | [] => .ok q
  | n :: rest =>
    if longestName < n.utf8ByteSize then .error (.system .longName)
    else
      match d.at? (q.step n) with
      | none => .error (.system .notFound)
      | some (.file _) => .error (.system .notADirectory)
      | some .folder => d.walk (q.step n) rest

inductive Goal where
  | entry (q : Place)
  /-- A folder that is not called by its name: the root, or one that the path reaches by dots. -/
  | folder (q : Place)
deriving DecidableEq, Repr

/-- What a path is about. The empty path is about nothing. -/
def locate (d : Disk) (p : Path) : Except IoTrouble Goal :=
  match flaw? p, p.names.getLast? with
  | some kind, _ => .error (.system kind)
  | none, none => if p.rooted then .ok (.folder .root) else .error (.system .notFound)
  | none, some last => do
    let q ← d.walk (p.start d.home) p.names.dropLast
    if last = "." ∨ last = ".." then .ok (.folder (q.step last))
    else if longestName < last.utf8ByteSize then .error (.system .longName)
    else .ok (.entry (q.child last))

def look (d : Disk) (p : Path) : Except IoTrouble Node := do
  match ← d.locate p with
  | .folder _ => .ok .folder
  | .entry q =>
    match d.at? q with
    | none => .error (.system .notFound)
    | some (.file b) => if p.slashed then .error (.system .notADirectory) else .ok (.file b)
    | some .folder => .ok .folder

def read (d : Disk) (p : Path) : Except IoTrouble Bytes := do
  match ← d.look p with
  | .folder => .error (.system .isADirectory)
  | .file b => .ok b

/-- Trouble with a read that the tree of files does not tell of: no permission, a device that fails. Only
the tree tells that something is missing. -/
structure Hindrance where
  trouble : IoTrouble
  found : trouble.kind ≠ .notFound

/-- Which reads are stopped, and by what. -/
abbrev ReadPlan := Path → Option Hindrance

def ReadPlan.smooth : ReadPlan := fun _ => none

def readUnder (plan : ReadPlan) (d : Disk) (p : Path) : Except IoTrouble Bytes :=
  match plan p with
  | some hindrance => .error hindrance.trouble
  | none => d.read p

def write (d : Disk) (p : Path) (b : Bytes) : Except IoTrouble Disk := do
  match ← d.locate p with
  | .folder _ => .error (.system .isADirectory)
  | .entry q =>
    if p.slashed || d.at? q == some .folder then .error (.system .isADirectory)
    else .ok (d.set q (.file b))

def remove (d : Disk) (p : Path) : Except IoTrouble Disk := do
  match ← d.locate p with
  | .folder _ => .error (.system .isADirectory)
  | .entry q =>
    match d.at? q with
    | none => .error (.system .notFound)
    | some (.file _) => if p.slashed then .error (.system .notADirectory) else .ok (d.erase q)
    | some .folder => .error (.system .isADirectory)

def makeFolder (d : Disk) (p : Path) : Except IoTrouble Disk := do
  match ← d.locate p with
  | .folder _ => .error (.system .alreadyExists)
  | .entry q =>
    if (d.at? q).isSome then .error (.system .alreadyExists) else .ok (d.set q .folder)

/-- The place at which a file can take the place of what stands at a path. -/
def slot (d : Disk) (p : Path) : Except IoTrouble Place := do
  match ← d.locate p with
  | .folder _ => .error (.system .busy)
  | .entry q =>
    if p.slashed then .error (.system .notADirectory)
    else if d.at? q = some .folder then .error (.system .isADirectory)
    else .ok q

/-- Moves what stands at one place to another, in a single step. -/
def move (d : Disk) (x q : Place) : Except IoTrouble Disk :=
  match d.at? x with
  | none => .error (.system .notFound)
  | some n => .ok ((d.erase x).set q n)

/-- The folder for a temporary file beside what stands at a path. Single dots and slashes at the end of
the path count for nothing here. -/
def beside (d : Disk) (p : Path) : Except IoTrouble Place :=
  let names := p.names.filter (· ≠ ".")
  match flaw? p with
  | some kind => .error (.system kind)
  | none => if names = [] then .ok d.home else d.walk (p.start d.home) names.dropLast

def install (d : Disk) (p : Path) (b : Bytes) : Disk :=
  let q := p.place d.home
  (d.setFolders q.above).set q (.file b)

def names (d : Disk) : List String :=
  d.nodes.toList.filterMap fun n =>
    let names := (Path.mk n.1).names
    if names.dropLast = d.home.names then names.getLast? else none

end Disk

end Custody
