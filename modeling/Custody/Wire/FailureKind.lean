import Custody.Failure
import Custody.Json.Tagged

/-!
Failures as a client sees them. Only their kind and a message cross the wire; for failures inside the
server the message tells nothing.
-/

namespace Custody

inductive FailureKind where
  | authentication
  | notFound
  | corrupt
  | unauthorized
  | io
  | internal
  | invalidRequest
deriving DecidableEq, Repr

namespace FailureKind

def all : List FailureKind :=
  [authentication, notFound, corrupt, unauthorized, io, internal, invalidRequest]

def name : FailureKind → String
  | authentication => "auth_failure"
  | notFound => "not_found"
  | corrupt => "corrupt_format"
  | unauthorized => "unauthorized"
  | io => "io"
  | internal => "internal"
  | invalidRequest => "invalid_request"

def describe : FailureKind → String
  | authentication => "AuthFailure"
  | notFound => "NotFound"
  | corrupt => "CorruptFormat"
  | unauthorized => "Unauthorized"
  | io => "Io"
  | internal => "Internal"
  | invalidRequest => "InvalidRequest"

def ofFailure : Failure → FailureKind
  | .authentication => authentication
  | .notFound _ => notFound
  | .corrupt _ => corrupt
  | .unauthorized => unauthorized
  | .io _ => io
  | .invalidInput _ | .protocol _ | .serialization _ => invalidRequest
  | .internal _ | .crypto _ | .configuration _ => internal

/-- The failure that a client reports for a kind and a message. -/
def toFailure (message : String) : FailureKind → Failure
  | authentication => .authentication
  | notFound => .notFound message
  | corrupt => .corrupt message
  | unauthorized => .unauthorized
  | io => .io (.reported .other message)
  | internal => .internal message
  | invalidRequest => .invalidInput message

/-- The message that goes with a failure; what happened inside the server stays there. -/
def messageOf (e : Failure) : String :=
  match ofFailure e with
  | internal => "internal error"
  | io => "I/O error, retry later"
  | _ => e.message

def codec : Json.Codec FailureKind where
  write k := Json.text k.name
  read src j :=
    match Json.readName src (all.map name) j with
    | .error e => .error e
    | .ok s =>
      match all.find? fun k => k.name == s with
      | some k => .ok k
      | none => .error (.unknownVariant s (all.map name))

end FailureKind

end Custody
