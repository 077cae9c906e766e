import Custody.Failure
import Custody.Net.Host

/-!
The network as a server or a client meets it: which texts name an address, and whether addresses can
be bound and servers reached.
-/

namespace Custody

def Address.portOf? (s : List Char) : Option Nat :=
  let digits := match s with
    | '+' :: rest => rest
    | s => s
  (Text.Read.whole? (number 10 65536 none true)) digits

/-- The address that a text names. What is no address as it stands is taken apart at its last colon. -/
def Address.resolve (s : String) : Except IoTrouble Address :=
  match ofText? s with
  | some a => .ok a
  | none =>
    let (port, host) := s.toList.reverse.span (· != ':')
    if host = [] then .error (.system .invalidAddress)
    else
      match portOf? port.reverse with
      | none => .error (.system .invalidPort)
      | some p => (Host.lookup (host.drop 1).reverse).map fun host => host.withPort p

structure Network where
  bind : Address → Except IoTrouble Unit
  reach : Address → Except IoTrouble Unit

namespace Network

def ready : Network := ⟨fun _ => .ok (), fun _ => .ok ()⟩

/-- Why an address cannot be bound where no address is assigned. Four numbers are not checked, nor are
groups that are all zero or stand for four numbers. Groups that mean many hosts, or a neighbour of no
interface, are never an address of one's own. -/
def foreign? : Address → Option IoKind
  | .six gs scope _ =>
    let first := gs.headD 0
    if gs.all (· = 0) || gs.take 6 = [0, 0, 0, 0, 0, 0xffff] then none
    else if 0xff00 ≤ first || (first >>> 6 = 0x3fa && scope = 0) then some .invalidInput
    else some .unassigned
  | _ => none

/-- A host without interfaces: an address can be bound if nothing has to be assigned for it, and nobody
can be reached. -/
def isolated : Network where
  bind a :=
    match foreign? a with
    | some kind => .error (.system kind)
    | none => .ok ()
  reach
    | .six gs _ _ => .error (.system (if gs.all (· = 0) then .unassigned else .unreachable))
    | _ => .error (.system .unreachable)

def listen (n : Network) (s : String) : Except IoTrouble Address := do
  let a ← Address.resolve s
  n.bind a
  return a

end Network

end Custody
