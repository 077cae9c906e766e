import Custody.Connection
import Custody.Net.Network
import Custody.Settings

/-!
A server: one vault, and the connections of all clients. Whatever arrives on a connection is served at
once; the clock ends connections that stay silent and saves the vault from time to time; when the server
stops it saves the vault once more.
-/

namespace Custody

structure Guest where
  id : Nat
  connection : Connection
  /-- Since when its next frame is awaited. -/
  since : Nat

/-- A server. Times are in seconds. -/
structure Server where
  address : Address
  host : Host
  patience : Option Nat
  period : Option Nat
  saveOnStop : Bool
  held : Holdings
  guests : List Guest
  clock : Nat
  /-- When the vault is saved next. -/
  due : Option Nat

inductive Server.Event where
  | connect (id : Nat) (chance : Bytes.Sized 16) (peer : Address)
  | arrive (id : Nat) (b : Bytes)
  | finish (id : Nat)
  | wait (seconds : Nat)

namespace Server

def start (network : Network) (settings : Settings) (keeper : Keeper) (held : Holdings) :
    Except Failure Server := do
  settings.validate
  let address ← (network.listen settings.bind).mapError .io
  let gateway := Gateway.ofPassword settings.password
  return {
    address
    host := ⟨gateway, ⟨keeper, settings.saveOnWrite⟩, settings.frameLimit, .plain⟩
    patience := settings.patience
    period := settings.savePeriod
    saveOnStop := settings.saveOnStop
    held
    guests := []
    clock := 0
    due := settings.savePeriod }

def serveGuest (host : Host) (chance : Nat → Supply) (clock : Nat) (change : Stream → Stream)
    (held : Holdings) (g : Guest) : Guest × Holdings :=
  let c := { g.connection with stream := change g.connection.stream }
  let p := c.serve host chance 0 held
  (⟨g.id, p.connection, if 0 < p.served then clock else g.since⟩, p.held)

def serveAmong (host : Host) (chance : Nat → Supply) (clock : Nat) (change : Stream → Stream)
    (id : Nat) (held : Holdings) : List Guest → List Guest × Holdings
  | [] => ([], held)
  | g :: rest =>
    if g.id = id then
      let (g, held) := serveGuest host chance clock change held g
      (g :: rest, held)
    else
      let (rest, held) := serveAmong host chance clock change id held rest
      (g :: rest, held)

def attend (chance : Nat → Supply) (change : Stream → Stream) (id : Nat) (s : Server) : Server :=
  let (guests, held) := serveAmong s.host chance s.clock change id s.held s.guests
  { s with guests, held }

def Guest.unlessSilent (patience : Option Nat) (clock : Nat) (g : Guest) : Guest :=
  match patience with
  | some n =>
    if n ≤ clock - g.since && g.connection.session.state != .closed then
      { g with connection := g.connection.shut }
    else g
  | none => g

def saveIfDue (supply : Supply) (s : Server) : Server :=
  match s.due with
  | some t =>
    if t ≤ s.clock then
      { s with held := (s.host.service.save supply s.held).2, due := s.period.map (s.clock + ·) }
    else s
  | none => s

/-- What an event does. Of the supplies, each frame that is served takes one. -/
def step (chance : Nat → Supply) (s : Server) : Event → Server
  | .connect id handle peer =>
    let c := Connection.accept s.host (.start handle peer)
    { s with guests := s.guests ++ [⟨id, c, s.clock⟩] }
  | .arrive id b => s.attend chance (·.feed b) id
  | .finish id => s.attend chance (·.finish) id
  | .wait seconds =>
    let clock := s.clock + seconds
    let guests := s.guests.map (Guest.unlessSilent s.patience clock)
    saveIfDue (chance 0) { s with clock, guests }

def run (chance : Nat → Nat → Supply) (s : Server) (events : List Event) : Server :=
  events.zipIdx.foldl (fun s e => s.step (chance e.2) e.1) s

/-- Stops the server: every connection ends, and the vault is saved if that is wanted. -/
def stop (supply : Supply) (s : Server) : Except Failure Unit × Server :=
  let guests := s.guests.map fun g => { g with connection := g.connection.shut }
  let s := { s with guests, due := none }
  if s.saveOnStop then
    let (r, held) := s.host.service.save supply s.held
    (r.map fun _ => (), { s with held })
  else (.ok (), s)

def guest? (s : Server) (id : Nat) : Option Guest := s.guests.find? (·.id == id)

def collect (id : Nat) (s : Server) : Bytes × Server :=
  let sent := (s.guest? id).map fun g => g.connection.stream.outlet.sent
  let guests := s.guests.map fun g =>
    if g.id = id then
      { g with connection := { g.connection with stream := g.connection.stream.collect.2 } }
    else g
  (sent.getD [], { s with guests })

end Server

end Custody
