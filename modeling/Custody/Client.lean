import Custody.Connection
import Custody.Net.Network
import Custody.Settings

/-!
A client of a server. Each call sends one request and awaits one response, which must carry the number
of the request; the number 0 answers a request that the server could not read.
-/

namespace Custody

/-- What a client may ask for once it is connected. Names are checked before anything is sent. -/
inductive Call where
  | put (id : String) (material : Bytes) (metadata : Metadata)
  | get (id : String)
  | delete (id : String)
  | list
  | contains (id : String)
  | count
  | clear
  | save
  | ping

inductive Reply where
  | replaced (b : Bool)
  | material (b : Bytes)
  | existed (b : Bool)
  | summaries (l : List Summary)
  | found (b : Bool)
  | count (n : Nat)
  | removed (n : Nat)
  | saved (n : Nat)
  | done

namespace Call

def request : Call → Except Failure Request
  | put id material metadata => (KeyId.ofText id).map fun id => .put id material metadata
  | get id => (KeyId.ofText id).map .get
  | delete id => (KeyId.ofText id).map .delete
  | list => .ok .list
  | contains id => (KeyId.ofText id).map .contains
  | count => .ok .count
  | clear => .ok .clear
  | save => .ok .save
  | ping => .ok .ping

def unexpected {α : Type} (r : Response) : Except Failure α :=
  .error (.protocol ("unexpected response: " ++ r.describe))

def reply : Call → Response → Except Failure Reply
  | put _ _ _, .stored b => .ok (.replaced b)
  | get _, .key b => .ok (.material b)
  | delete _, .deleted b => .ok (.existed b)
  | list, .keys l => .ok (.summaries l)
  | contains _, .contains b => .ok (.found b)
  | count, .count n => .ok (.count n)
  | clear, .cleared n => .ok (.removed n)
  | save, .saved n => .ok (.saved n)
  | ping, .pong => .ok .done
  | _, r => unexpected r

end Call

structure Client where
  stream : Stream
  next : UInt64
  session : String

/-- Who stands at the other end: given the bytes that arrive, it sends some and may send no more. -/
structure Peer (σ : Type) where
  react : σ → Bytes → σ × Bytes × Bool

namespace Client

def fresh : Client := ⟨.fresh Settings.usualFrameLimit, 1, ""⟩

def send (c : Client) (r : Request) : Except Failure Unit × Client :=
  let (result, stream) := c.stream.send RequestFrame.codec ⟨c.next, r⟩
  (result, { c with stream, next := c.next + 1 })

def accept (id : UInt64) (f : ResponseFrame) : Except Failure Response :=
  if f.id != id && f.id != 0 then
    .error (.protocol s!"response id {f.id} does not match request id {id}")
  else
    match f.response with
    | .failed kind message => .error (kind.toFailure message)
    | r => .ok r

/-- Awaits the response to the last request; there is none as long as nothing has come. -/
def await (c : Client) : Option (Except Failure Response) × Client :=
  let (r, stream) := c.stream.receive ResponseFrame.codec
  let response := match r with
    | .pending => none
    | .finished => some (.error (.io (.reported .unexpectedEnd "server closed the connection")))
    | .failed e => some (.error e)
    | .message f => some (accept (c.next - 1) f)
  (response, { c with stream })

def deliver {σ : Type} (peer : Peer σ) (c : Client) (s : σ) : Client × σ :=
  let (sent, stream) := c.stream.collect
  let (s, back, ended) := peer.react s sent
  let stream := stream.feed back
  ({ c with stream := if ended then stream.finish else stream }, s)

def ask {σ : Type} (peer : Peer σ) (r : Request) (c : Client) (s : σ) :
    Option (Except Failure Response) × Client × σ :=
  match c.send r with
  | (.error e, c) => (some (.error e), c, s)
  | (.ok (), c) =>
    let (c, s) := c.deliver peer s
    let (response, c) := c.await
    (response, c, s)

def call {σ : Type} (peer : Peer σ) (k : Call) (c : Client) (s : σ) :
    Option (Except Failure Reply) × Client × σ :=
  match k.request with
  | .error e => (some (.error e), c, s)
  | .ok r =>
    let (response, c, s) := c.ask peer r s
    (response.map fun r => r.bind k.reply, c, s)

def connect {σ : Type} (network : Network) (address : Address) (peer : Peer σ) (password : String)
    (s : σ) : Option (Except Failure Client) × σ :=
  match network.reach address with
  | .error t => (some (.error (.io t)), s)
  | .ok () =>
    let (response, c, s) := fresh.ask peer (.auth password) s
    (response.map fun r => r.bind fun
      | .authenticated session => .ok { c with session }
      | r => Call.unexpected r, s)

def close (c : Client) : Except Failure Unit × Client :=
  let (r, stream) := c.stream.close
  (r, { c with stream })

end Client

/-- A server's connection as the other end of a client, with the vault and disk that it works on. Each
delivery takes one row of supplies. -/
def Connection.peer (host : Host) (chance : Nat → Nat → Supply) :
    Peer (Nat × Connection × Holdings) where
  react := fun (n, c, held) b =>
    let p := { c with stream := c.stream.feed b }.serve host (chance n) 0 held
    let (sent, stream) := p.connection.stream.collect
    ((n + 1, { p.connection with stream }, p.held), sent, stream.outlet.closed)

end Custody
