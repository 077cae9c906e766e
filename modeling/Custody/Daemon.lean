import Custody.Invocation
import Custody.Server
import Custody.Text.Unadorned

/-!
The server as a program: how it starts, and how it ends. It serves clients only if nothing was saved,
or if what was saved could be brought back; in every other case it ends with a complaint and leaves the
saved file alone.
-/

namespace Custody

/-- Why the program ends: what failed, and for what reason. -/
structure Complaint where
  what : String
  why : Option Failure

namespace Complaint

def text (c : Complaint) : String :=
  match c.why with
  | some e => s!"Error: {c.what}\n\nCaused by:\n    {e.message}"
  | none => s!"Error: {c.what}"

def about {α : Type} (what : String) (r : Except Failure α) : Except Complaint α :=
  r.mapError fun e => ⟨what, some e⟩

def plainly {α : Type} (r : Except Failure α) : Except Complaint α :=
  r.mapError fun e => ⟨e.message, none⟩

end Complaint

namespace Daemon

def name : String := "keylockd"

def version : String := "0.1.0"

def help : String :=
  "Keylock - In-memory encrypted key management server\n\n" ++
  "Usage: keylockd [OPTIONS]\n\n" ++
  "Options:\n" ++
  "  -c, --config <CONFIG>  Path to the configuration file [default: keylock.toml]\n" ++
  "  -v, --verbose          Enable verbose logging\n" ++
  "  -h, --help             Print help\n" ++
  "  -V, --version          Print version\n"

def usage (complaint : String) : String :=
  Text.unadorned s!"error: {complaint}" ++
    "\n\nUsage: keylockd [OPTIONS]\n\nFor more information, try '--help'.\n"

def restore (settings : Settings) (keeper : Keeper) (d : Disk) (plan : Disk.ReadPlan) :
    Except Complaint (Option Snapshot) :=
  match keeper.restore d plan with
  | .ok saved => .ok saved
  | .error .authentication =>
    .error ⟨s!"Dump {settings.savePath} could not be decrypted: wrong dump_password or tampered file",
      none⟩
  | .error e => .error ⟨s!"Failed to restore {settings.savePath}", some e⟩

def start (network : Network) (file : String) (d : Disk) (draw : Draw)
    (plan : Disk.ReadPlan := .smooth) : Except Complaint Server := do
  let settings ← Complaint.about s!"Failed to load config from {file}"
    (Settings.load d ⟨file⟩ plan)
  let cost ← Complaint.plainly settings.cost
  let keeper ← Complaint.plainly settings.keeper
  let saved ← restore settings keeper d plan
  let vault ← Complaint.about "Failed to open vault with the configured password"
    (Vault.load settings.password cost saved draw)
  Complaint.about s!"Failed to bind {settings.bind}" (Server.start network settings keeper ⟨vault, d⟩)

def stop (supply : Supply) (s : Server) : Except Complaint Unit × Server :=
  let (r, s) := s.stop supply
  (Complaint.about "Final dump failed" r, s)

/-- How the program ended: its complaint, if it has one, the server that served its clients, if one did, as
it was stopped, and the disk that is left. -/
structure Ending where
  complaint : Option Complaint
  served : Option Server
  disk : Disk

/-- Serves clients until the program is told to stop. -/
def serve (chance : Nat → Nat → Supply) (events : List Server.Event) (last : Supply) (server : Server) :
    Ending :=
  match stop last (server.run chance events) with
  | (.ok (), s) => ⟨none, some s, s.held.disk⟩
  | (.error c, s) => ⟨some c, some s, s.held.disk⟩

/-- What becomes of the program from its start to its end. -/
def run (network : Network) (file : String) (d : Disk) (draw : Draw) (plan : Disk.ReadPlan)
    (chance : Nat → Nat → Supply) (events : List Server.Event) (last : Supply) : Ending :=
  match start network file d draw plan with
  | .error c => ⟨some c, none, d⟩
  | .ok server => serve chance events last server

end Daemon

end Custody
