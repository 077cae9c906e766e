import Custody.Net.Address
import Custody.Secret

/-!
Who may use the vault. A session is one client's connection; its first attempt to authenticate opens
it for good or closes it for good.
-/

namespace Custody

/-- Knows the operator's password by its digest. -/
structure Gateway where
  digest : Bytes

namespace Gateway

def ofPassword (password : Bytes) : Gateway := ⟨Secret.digest password⟩

def verify (g : Gateway) (password : Bytes) : Bool := g.digest = Secret.digest password

def described : String := "AuthGateway([REDACTED])"

end Gateway

inductive SessionState where
  | unauthenticated
  | authenticated
  | closed
deriving DecidableEq, Repr

structure Session where
  handle : String
  peer : Address
  state : SessionState

namespace Session

/-- The name that sixteen random bytes give: hexadecimal digits in five groups, with the marks of a
random name. -/
def handleOf (chance : Bytes.Sized 16) : String :=
  let marked := (chance.val.modify 6 fun b => b &&& 0x0f ||| 0x40).modify 8 fun b =>
    b &&& 0x3f ||| 0x80
  let digits := marked.flatMap fun b =>
    [Text.hexDigit (b.toNat / 16), Text.hexDigit (b.toNat % 16)]
  let group (start length : Nat) := String.ofList ((digits.drop start).take length)
  "-".intercalate [group 0 8, group 8 4, group 12 4, group 16 4, group 20 12]

def start (chance : Bytes.Sized 16) (peer : Address) : Session :=
  ⟨handleOf chance, peer, .unauthenticated⟩

def isAuthenticated (s : Session) : Bool := s.state = .authenticated

def authenticate (g : Gateway) (password : Bytes) (s : Session) : Except Failure Unit × Session :=
  match s.state with
  | .unauthenticated =>
    if g.verify password then (.ok (), { s with state := .authenticated })
    else (.error .authentication, { s with state := .closed })
  | .authenticated => (.error (.invalidInput "Session is already authenticated"), s)
  | .closed => (.error .authentication, s)

def authorize (s : Session) : Except Failure Unit :=
  if s.isAuthenticated then .ok () else .error .unauthorized

def close (s : Session) : Session := { s with state := .closed }

end Session

end Custody
