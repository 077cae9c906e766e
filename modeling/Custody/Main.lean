import Custody.Daemon
import Std.Time.DateTime.Timestamp

/-!
The program. It reads its settings and the saved vault, serves one client over standard input and
output, and keeps the saved file as the server wants it.
-/

namespace Custody.Program

def supplyOf (seed : Bytes) (now : Instant) (n : Nat) : Supply :=
  let drawOf (purpose : Nat) : Draw :=
    let bytes (tag : Nat) :=
      Blake2b.digest 32 (seed ++ Bytes.littleEndian 8 n ++ Bytes.littleEndian 8 (2 * purpose + tag))
    { salt := ⟨bytes 0, by simp [bytes]⟩
      nonce := ⟨(bytes 1).take 24, by simp [bytes]⟩
      now
      scratch := s!".custody{n}.tmp" }
  ⟨drawOf 0, drawOf 1, .smooth⟩

def randomBytes (n : Nat) : IO (Bytes.Sized n) := do
  let b := (← IO.getRandomBytes n.toUSize).data.toList
  if h : b.length = n then return ⟨b, h⟩ else throw (IO.userError "no random bytes")

def present : IO Instant := do
  let t ← Std.Time.Timestamp.now
  return ⟨t.val.second.val, t.val.nano.val.toNat⟩

def chance : IO (Nat → Supply) := do
  let seed ← randomBytes 32
  let now ← present
  return supplyOf seed.val now

/-- The folder that relative paths start from; what it is called does not matter. -/
def home : Place := ⟨["home", "custody"]⟩

def gatherFolder (d : Disk) (p : Path) : IO Disk := do
  let folder := (if p.rooted then "/" else "./") ++ "/".intercalate p.names.dropLast
  try
    let _ ← IO.FS.realPath (folder ++ "/.")
    return d.setFolders (p.place d.home).above
  catch _ => return d

def gather (d : Disk) (shown : String) : IO Disk := do
  try
    let b ← IO.FS.readBinFile shown
    return d.install ⟨shown⟩ b.data.toList
  catch
    | .noFileOrDirectory .. => gatherFolder d ⟨shown⟩
    | e => throw e

def publish (shown : String) (old new : Disk) : IO Unit := do
  match old.read ⟨shown⟩, new.read ⟨shown⟩ with
  | before, .ok b =>
    if before.toOption = some b then return
    else
      IO.FS.writeBinFile (shown ++ ".tmp") ⟨b.toArray⟩
      IO.FS.rename (shown ++ ".tmp") shown
  | _, _ => return

partial def serve (shown : String) (s : Server) : IO Server := do
  let input ← IO.getStdin
  let output ← IO.getStdout
  let b ← input.read 65536
  let supply ← chance
  let event : Server.Event := if b.isEmpty then .finish 0 else .arrive 0 b.data.toList
  let next := s.step supply event
  publish shown s.held.disk next.held.disk
  let (sent, next) := next.collect 0
  output.write ⟨sent.toArray⟩
  output.flush
  let open_ := (next.guest? 0).any fun g => g.connection.session.state != .closed
  if b.isEmpty || !open_ then return next else serve shown next

def run (file : String) : IO UInt32 := do
  let first ← gather (.empty home) file
  let disk ← match Settings.load first ⟨file⟩ with
    | .ok settings => gather first settings.savePath
    | .error _ => pure first
  let supply ← chance
  match Daemon.start .ready file disk (supply 0).draw with
  | .error c =>
    IO.eprintln c.text
    return 1
  | .ok server =>
    let shown := server.host.service.keeper.path.text
    let handle ← randomBytes 16
    let served ← serve shown (server.step supply (.connect 0 handle (.four [127, 0, 0, 1] 0)))
    let (result, stopped) := Daemon.stop ((← chance) 0) served
    publish shown served.held.disk stopped.held.disk
    match result with
    | .ok () => return 0
    | .error c =>
      IO.eprintln c.text
      return 1

end Custody.Program

def main (args : List String) : IO UInt32 := do
  match Custody.Invocation.ofArguments args with
  | .help =>
    IO.print Custody.Daemon.help
    return 0
  | .version =>
    IO.println s!"{Custody.Daemon.name} {Custody.Daemon.version}"
    return 0
  | .refused complaint =>
    IO.eprint (Custody.Daemon.usage complaint)
    return 2
  | .run file _ => Custody.Program.run file
