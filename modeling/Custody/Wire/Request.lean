import Custody.Json.Canonical
import Custody.Key.Entry

/-!
What a client asks for. A request is written as its verb and arguments, in a frame with a number by
which the answer is known.
-/

namespace Custody

inductive Request where
  | auth (password : String)
  | put (id : KeyId) (material : Bytes) (metadata : Metadata)
  | get (id : KeyId)
  | delete (id : KeyId)
  | list
  | contains (id : KeyId)
  | count
  | clear
  | save
  | ping

/-- How deep arguments may nest that are put aside: two levels stand around them. -/
def Wire.room : Nat := Json.maxDepth - 2

namespace Request

def nameSchema : Json.Schema [KeyId] := .field "id" KeyId.codec none .nil

def authSchema : Json.Schema [String] := .field "password" .text none .nil

def putSchema : Json.Schema [KeyId, Bytes, Metadata] :=
  .field "id" KeyId.codec none <| .field "key" .base64 none <|
    .field "metadata" .dictionary (some .empty) .nil

def tagged : Json.Tagged Request where
  title := "Request"
  tag := "verb"
  content := "args"
  room := Wire.room
  variants := [
    .fields "AUTH" "Request::Auth" authSchema fun (password, ()) => auth password,
    .fields "PUT" "Request::Put" putSchema fun (id, material, metadata, ()) =>
      put id material metadata,
    .fields "GET" "Request::Get" nameSchema fun (id, ()) => get id,
    .fields "DELETE" "Request::Delete" nameSchema fun (id, ()) => delete id,
    .bare "LIST" "Request::List" list,
    .fields "EXISTS" "Request::Exists" nameSchema fun (id, ()) => contains id,
    .bare "COUNT" "Request::Count" count,
    .bare "CLEAR" "Request::Clear" clear,
    .bare "DUMP" "Request::Dump" save,
    .bare "PING" "Request::Ping" ping]

def verb : Request → String
  | auth _ => "AUTH"
  | put _ _ _ => "PUT"
  | get _ => "GET"
  | delete _ => "DELETE"
  | list => "LIST"
  | contains _ => "EXISTS"
  | count => "COUNT"
  | clear => "CLEAR"
  | save => "DUMP"
  | ping => "PING"

def write (r : Request) : Json :=
  match r with
  | auth password => tagged.fields r.verb (authSchema.members (password, ()))
  | put id material metadata =>
    tagged.fields r.verb (putSchema.members (id, material, metadata, ()))
  | get id | delete id | contains id => tagged.fields r.verb (nameSchema.members (id, ()))
  | list | count | clear | save | ping => tagged.bare r.verb

def codec : Json.Codec Request := ⟨write, tagged.read⟩

/-- The same request without the secret that it carries. -/
def wiped : Request → Request
  | auth _ => auth ""
  | put id _ metadata => put id [] metadata
  | r => r

def describe (r : Request) : String :=
  let named (title : String) (id : KeyId) := title ++ " \x7b id: " ++ id.describe ++ " \x7d"
  match r with
  | auth _ => "Auth \x7b password: [REDACTED] \x7d"
  | put id material metadata =>
    "Put \x7b id: " ++ id.describe ++ s!", key: [REDACTED; {material.length} bytes], metadata: " ++
      metadata.describe ++ " \x7d"
  | get id => named "Get" id
  | delete id => named "Delete" id
  | contains id => named "Exists" id
  | r => r.verb

end Request

structure RequestFrame where
  id : UInt64
  request : Request

def RequestFrame.schema : Json.Schema [UInt64, Request] :=
  .field "id" .word64 none <| .field "request" Request.codec none .nil

def RequestFrame.codec : Json.Codec RequestFrame :=
  schema.codec "RequestFrame" (fun f => (f.id, f.request, ())) fun (id, request, ()) =>
    ⟨id, request⟩

end Custody
