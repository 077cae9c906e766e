/-!
What the arguments of the program ask for. Options come in any order. A file name that stands apart
from its option is checked only when the next known option is met, or at the end; an argument that
nobody asked for is refused before that.
-/

namespace Custody

inductive Invocation where
  | run (settingsFile : String) (verbose : Bool)
  | help
  | version
  | refused (complaint : String)
deriving DecidableEq, Repr

namespace Invocation

def usualFile : String := "keylock.toml"

/-- A file name that stands apart from its option. -/
inductive Apart where
  | awaited
  | given (name : String)
deriving DecidableEq, Repr

structure Found where
  file : Option String
  verbose : Bool
  apart : Option Apart
  plain : Bool

def Found.nothing : Found := ⟨none, false, none, false⟩

def stray (s : String) : Invocation := refused s!"unexpected argument '{s}' found"

def surplus (value option : String) : Invocation :=
  refused s!"unexpected value '{value}' for '{option}' found; no more were expected"

def repeated (option : String) : Invocation :=
  refused s!"the argument '{option}' cannot be used multiple times"

def lacking : Invocation :=
  refused "a value is required for '--config <CONFIG>' but none was supplied"

namespace Found

def withFile (f : Found) (name : String) : Except Invocation Found :=
  if f.file.isSome then .error (repeated "--config <CONFIG>")
  else if name = "" then .error lacking
  else .ok { f with file := some name }

def settle (f : Found) : Except Invocation Found :=
  match f.apart with
  | none => .ok f
  | some .awaited => .error lacking
  | some (.given name) => { f with apart := none }.withFile name

def withVerbose (f : Found) : Except Invocation Found :=
  if f.verbose then .error (repeated "--verbose") else .ok { f with verbose := true }

/-- Takes the letters behind a single dash. -/
def letters (f : Found) : List Char → Except Invocation Found
  | [] => .ok f
  | c :: rest =>
    match c with
    | 'v' => (f.settle.bind withVerbose).bind fun f => f.letters rest
    | 'h' => f.settle.bind fun _ => .error help
    | 'V' => f.settle.bind fun _ => .error version
    | 'c' => f.settle.bind fun f =>
      match rest with
      | [] => .ok { f with apart := some .awaited }
      | '=' :: name => f.withFile (String.ofList name)
      | name => f.withFile (String.ofList name)
    | c => .error (stray (String.ofList ['-', c]))

def named (f : Found) (name : String) (value : Option String) : Except Invocation Found :=
  match name, value with
  | "config", some file => f.settle.bind fun f => f.withFile file
  | "config", none => f.settle.map fun f => { f with apart := some .awaited }
  | "verbose", none => f.settle.bind withVerbose
  | "help", none => f.settle.bind fun _ => .error help
  | "version", none => f.settle.bind fun _ => .error version
  | "verbose", some v => .error (surplus v "--verbose")
  | "help", some v => .error (surplus v "--help")
  | "version", some v => .error (surplus v "--version")
  | name, _ => .error (stray ("--" ++ name))

def word (f : Found) (s : String) : Except Invocation Found :=
  if f.apart = some .awaited ∧ f.plain = false then .ok { f with apart := some (.given s) }
  else .error (stray s)

def argument (f : Found) (s : String) : Except Invocation Found :=
  if f.plain then f.word s
  else
    match s.toList with
    | '-' :: '-' :: [] => .ok { f with plain := true }
    | '-' :: '-' :: rest =>
      let (name, value) := rest.span (· != '=')
      f.named (String.ofList name) (if value = [] then none else some (String.ofList (value.drop 1)))
    | '-' :: c :: rest => f.letters (c :: rest)
    | _ => f.word s

end Found

def ofArguments (l : List String) : Invocation :=
  match (l.foldlM Found.argument .nothing).bind Found.settle with
  | .ok f => run (f.file.getD usualFile) f.verbose
  | .error i => i

end Invocation

end Custody
