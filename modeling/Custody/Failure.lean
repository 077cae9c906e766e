/-!
Why an operation fails. Each cause carries the words that are reported with it, except where a word
would tell an attacker too much: a wrong password and damaged data look the same.
-/

namespace Custody

inductive IoKind where
  | notFound
  | notADirectory
  | isADirectory
  | alreadyExists
  | busy
  | longName
  | invalidName
  | permissionDenied
  | invalidData
  | invalidInput
  | invalidAddress
  | invalidPort
  | unresolved
  | brokenPipe
  | unexpectedEnd
  | unassigned
  | unreachable
  | other
deriving DecidableEq, Repr

/-- Trouble with a file or a connection. What the system reports has a fixed text; what the program
reports has a text of its own. -/
inductive IoTrouble where
  | system (kind : IoKind)
  | reported (kind : IoKind) (text : String)
deriving DecidableEq, Repr

namespace IoTrouble

def kind : IoTrouble → IoKind
  | .system kind => kind
  | .reported kind _ => kind

def text : IoTrouble → String
  | .reported _ text => text
  | .system kind =>
    match kind with
    | .notFound => "No such file or directory (os error 2)"
    | .permissionDenied => "Permission denied (os error 13)"
    | .notADirectory => "Not a directory (os error 20)"
    | .isADirectory => "Is a directory (os error 21)"
    | .alreadyExists => "File exists (os error 17)"
    | .busy => "Device or resource busy (os error 16)"
    | .longName => "File name too long (os error 36)"
    | .invalidName => "file name contained an unexpected NUL byte"
    | .invalidAddress => "invalid socket address"
    | .invalidPort => "invalid port value"
    | .invalidInput => "Invalid argument (os error 22)"
    | .unresolved => "failed to lookup address information"
    | .unassigned => "Cannot assign requested address (os error 99)"
    | .invalidData => "stream did not contain valid UTF-8"
    | .brokenPipe => "broken pipe"
    | .unexpectedEnd => "unexpected end of file"
    | .unreachable => "Network is unreachable (os error 101)"
    | .other => "other error"

end IoTrouble

inductive Failure where
  /-- A wrong password, or data whose authentication tag does not fit. -/
  | authentication
  | notFound (what : String)
  | corrupt (why : String)
  /-- A request came before the session was authenticated. -/
  | unauthorized
  | io (trouble : IoTrouble)
  | internal (why : String)
  | crypto (why : String)
  | invalidInput (why : String)
  | serialization (why : String)
  | protocol (why : String)
  | configuration (why : String)
deriving DecidableEq, Repr

namespace Failure

def message : Failure → String
  | .authentication => "Authentication failed"
  | .notFound what => "Not found: " ++ what
  | .corrupt why => "Corrupt format: " ++ why
  | .unauthorized => "Unauthorized"
  | .io trouble => "I/O error: " ++ trouble.text
  | .internal why => "Internal error: " ++ why
  | .crypto why => "Cryptographic error: " ++ why
  | .invalidInput why => "Invalid input: " ++ why
  | .serialization why => "Serialization error: " ++ why
  | .protocol why => "Protocol error: " ++ why
  | .configuration why => "Configuration error: " ++ why

def isTransient : Failure → Bool
  | .io _ => true
  | _ => false

end Failure

end Custody
