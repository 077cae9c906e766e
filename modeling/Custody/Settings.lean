import Custody.Keeper
import Custody.Text.Blank
import Custody.Toml.Document

/-!
The settings of a server. They are read from a file in which every name must be known, and checked
before they are used.
-/

namespace Custody

structure Settings where
  bind : String
  password : Bytes
  savePath : String
  savePassword : Bytes
  strength : String
  frameLimit : Nat
  saveOnWrite : Bool
  /-- Seconds between saves. -/
  savePeriod : Option Nat
  saveOnStop : Bool
  /-- Seconds of silence after which a client is left. -/
  patience : Option Nat

namespace Settings

def usualFrameLimit : Nat := 64 * 1024 * 1024

def make (bind password savePath savePassword : String) : Settings :=
  ⟨bind, Bytes.ofText password, savePath, Bytes.ofText savePassword, "moderate", usualFrameLimit,
    false, none, true, none⟩

structure Draft where
  bind : Option String
  password : Option String
  savePath : Option String
  savePassword : Option String
  strength : Option String
  frameLimit : Option Nat
  saveOnWrite : Option Bool
  savePeriod : Option Nat
  saveOnStop : Option Bool
  patience : Option Nat

namespace Draft

def blank : Draft := ⟨none, none, none, none, none, none, none, none, none, none⟩

def names : List String :=
  ["bind", "password", "dump_path", "dump_password", "kdf", "max_frame_len", "dump_on_write",
    "dump_interval_secs", "dump_on_shutdown", "idle_timeout_secs"]

def take (d : Draft) (name : String) (v : Toml) : Except Fault Draft :=
  let text := v.asText "a string"
  match name with
  | "bind" => text.map fun s => { d with bind := some s }
  | "password" => text.map fun s => { d with password := some s }
  | "dump_path" => (v.asText "path string").map fun s => { d with savePath := some s }
  | "dump_password" => text.map fun s => { d with savePassword := some s }
  | "kdf" => text.map fun s => { d with strength := some s }
  | "max_frame_len" => (v.asNatural "usize").map fun n => { d with frameLimit := some n }
  | "dump_on_write" => v.asBoolean.map fun b => { d with saveOnWrite := some b }
  | "dump_interval_secs" => (v.asNatural "u64").map fun n => { d with savePeriod := some n }
  | "dump_on_shutdown" => v.asBoolean.map fun b => { d with saveOnStop := some b }
  | "idle_timeout_secs" => (v.asNatural "u64").map fun n => { d with patience := some n }
  | _ => .error (.unknownField name names)

def finish (d : Draft) : Except Fault Settings := do
  let given {α : Type} (name : String) : Option α → Except Fault α
    | some a => .ok a
    | none => .error (.missingField name)
  let bind ← given "bind" d.bind
  let password ← given "password" d.password
  let savePath ← given "dump_path" d.savePath
  let savePassword ← given "dump_password" d.savePassword
  let usual := make bind password savePath savePassword
  return { usual with
    strength := d.strength.getD usual.strength
    frameLimit := d.frameLimit.getD usual.frameLimit
    saveOnWrite := d.saveOnWrite.getD usual.saveOnWrite
    savePeriod := d.savePeriod
    saveOnStop := d.saveOnStop.getD usual.saveOnStop
    patience := d.patience }

def ofMembers (members : List (String × Toml)) : Except Fault Settings := do
  let d ← members.foldlM (fun (d : Draft) m => d.take m.1 m.2) blank
  d.finish

end Draft

def cost (s : Settings) : Except Failure Cost :=
  (Cost.named s.strength).mapError fun e => .configuration e.message

def flaw? (s : Settings) : Option String :=
  if s.bind.toList.all Text.isBlank then some "bind must not be empty"
  else if s.password = [] then some "password must not be empty"
  else if s.savePath = "" then some "dump_path must not be empty"
  else if s.savePassword = [] then some "dump_password must not be empty"
  else if s.frameLimit = 0 ∨ UInt32.size ≤ s.frameLimit then
    some "max_frame_len must be between 1 and 4294967295"
  else if s.savePeriod = some 0 then some "dump_interval_secs must be positive"
  else if s.patience = some 0 then some "idle_timeout_secs must be positive"
  else none

def validate (s : Settings) : Except Failure Unit :=
  match s.flaw? with
  | some flaw => .error (.configuration flaw)
  | none => s.cost.map fun _ => ()

def read (text : String) : Except Failure Settings :=
  match Toml.members? text with
  | none => .error (.configuration "invalid TOML")
  | some members =>
    (Draft.ofMembers members).mapError fun fault => .configuration fault.message

def ofText (text : String) : Except Failure Settings := do
  let s ← read text
  s.validate
  return s

def load (d : Disk) (p : Path) (plan : Disk.ReadPlan := .smooth) : Except Failure Settings :=
  match d.readUnder plan p with
  | .error t => .error (.io t)
  | .ok b =>
    match Bytes.text? b with
    | none => .error (.io (.system .invalidData))
    | some text => ofText text

def describeSeconds : Option Nat → String
  | some n => s!"Some({n})"
  | none => "None"

def describe (s : Settings) : String :=
  let parts := [
    "bind: " ++ Text.quoted s.bind,
    "password: " ++ Secret.describe s.password,
    "dump_path: " ++ Text.quoted s.savePath,
    "dump_password: " ++ Secret.describe s.savePassword,
    "kdf: " ++ Text.quoted s.strength,
    s!"max_frame_len: {s.frameLimit}",
    s!"dump_on_write: {s.saveOnWrite}",
    "dump_interval_secs: " ++ describeSeconds s.savePeriod,
    s!"dump_on_shutdown: {s.saveOnStop}",
    "idle_timeout_secs: " ++ describeSeconds s.patience]
  "ServerConfig \x7b " ++ ", ".intercalate parts ++ " \x7d"

def keeper (s : Settings) : Except Failure Keeper :=
  s.cost.map fun cost => ⟨⟨s.savePath⟩, s.savePassword, cost⟩

end Settings

end Custody
