import Custody.Wire.FailureKind
import Custody.Wire.Request

/-!
What the server answers. A response is written as its status and data, in a frame with the number of
the request that it answers.
-/

namespace Custody

inductive Response where
  | authenticated (session : String)
  | stored (replaced : Bool)
  | key (material : Bytes)
  | deleted (existed : Bool)
  | keys (summaries : List Summary)
  | contains (found : Bool)
  | count (n : Nat)
  | cleared (removed : Nat)
  | saved (entries : Nat)
  | pong
  | failed (kind : FailureKind) (message : String)

namespace Response

def one {α : Type} (name : String) (c : Json.Codec α) : Json.Schema [α] := .field name c none .nil

def failedSchema : Json.Schema [FailureKind, String] :=
  .field "kind" FailureKind.codec none <| .field "message" .text none .nil

def tagged : Json.Tagged Response where
  title := "Response"
  tag := "status"
  content := "data"
  room := Wire.room
  variants := [
    .fields "authenticated" "Response::Authenticated" (one "session" .text) fun (s, ()) =>
      authenticated s,
    .fields "stored" "Response::Stored" (one "replaced" .boolean) fun (b, ()) => stored b,
    .fields "key" "Response::Key" (one "key" .base64) fun (b, ()) => key b,
    .fields "deleted" "Response::Deleted" (one "existed" .boolean) fun (b, ()) => deleted b,
    .fields "keys" "Response::Keys" (one "keys" (.list Summary.codec)) fun (l, ()) => keys l,
    .fields "exists" "Response::Exists" (one "exists" .boolean) fun (b, ()) => contains b,
    .fields "count" "Response::Count" (one "count" .count) fun (n, ()) => count n,
    .fields "cleared" "Response::Cleared" (one "removed" .count) fun (n, ()) => cleared n,
    .fields "dumped" "Response::Dumped" (one "records" .count) fun (n, ()) => saved n,
    .bare "pong" "Response::Pong" pong,
    .fields "error" "Response::Error" failedSchema fun (kind, message, ()) => failed kind message]

def write : Response → Json
  | authenticated s => tagged.fields "authenticated" ((one "session" .text).members (s, ()))
  | stored b => tagged.fields "stored" ((one "replaced" .boolean).members (b, ()))
  | key b => tagged.fields "key" ((one "key" .base64).members (b, ()))
  | deleted b => tagged.fields "deleted" ((one "existed" .boolean).members (b, ()))
  | keys l => tagged.fields "keys" ((one "keys" (.list Summary.codec)).members (l, ()))
  | contains b => tagged.fields "exists" ((one "exists" .boolean).members (b, ()))
  | count n => tagged.fields "count" ((one "count" .count).members (n, ()))
  | cleared n => tagged.fields "cleared" ((one "removed" .count).members (n, ()))
  | saved n => tagged.fields "dumped" ((one "records" .count).members (n, ()))
  | pong => tagged.bare "pong"
  | failed kind message => tagged.fields "error" (failedSchema.members (kind, message, ()))

def codec : Json.Codec Response := ⟨write, tagged.read⟩

def ofFailure (e : Failure) : Response :=
  .failed (FailureKind.ofFailure e) (FailureKind.messageOf e)

def describe (r : Response) : String :=
  let shown (title name value : String) :=
    title ++ " \x7b " ++ name ++ ": " ++ value ++ " \x7d"
  match r with
  | authenticated s => shown "Authenticated" "session" (Text.quoted s)
  | stored b => shown "Stored" "replaced" (toString b)
  | key b => shown "Key" "key" s!"[REDACTED; {b.length} bytes]"
  | deleted b => shown "Deleted" "existed" (toString b)
  | keys l => shown "Keys" "keys" ("[" ++ ", ".intercalate (l.map Summary.describe) ++ "]")
  | contains b => shown "Exists" "exists" (toString b)
  | count n => shown "Count" "count" (toString n)
  | cleared n => shown "Cleared" "removed" (toString n)
  | saved n => shown "Dumped" "records" (toString n)
  | pong => "Pong"
  | failed kind message =>
    "Error \x7b kind: " ++ kind.describe ++ ", message: " ++ Text.quoted message ++ " \x7d"

end Response

structure ResponseFrame where
  id : UInt64
  response : Response

def ResponseFrame.schema : Json.Schema [UInt64, Response] :=
  .field "id" .word64 none <| .field "response" Response.codec none .nil

def ResponseFrame.codec : Json.Codec ResponseFrame :=
  schema.codec "ResponseFrame" (fun f => (f.id, f.response, ())) fun (id, response, ()) =>
    ⟨id, response⟩

end Custody
