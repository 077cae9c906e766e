import Custody.Cipher.Sealing
import Custody.Key.Id
import Custody.Json.Schema
import Custody.Time.Reader

/-!
What is kept of a key: its name, its sealed material, and what may be told of it without a password.
-/

namespace Custody

/-- Labels of a key, kept in the clear. -/
abbrev Metadata := Catalog (Prod.fst : String × String → String)

def Metadata.describe (m : Metadata) : String :=
  let one (p : String × String) := Text.quoted p.1 ++ ": " ++ Text.quoted p.2
  "\x7b" ++ ", ".intercalate (m.toList.map one) ++ "\x7d"

structure Summary where
  id : KeyId
  metadata : Metadata
  created : Instant

namespace Summary

def schema : Json.Schema [KeyId, Metadata, Instant] :=
  .field "id" KeyId.codec none <| .field "metadata" .dictionary (some .empty) <|
    .field "created_at" Instant.codec none .nil

def codec : Json.Codec Summary :=
  schema.codec "KeyEntry" (fun s => (s.id, s.metadata, s.created, ()))
    fun (id, metadata, created, ()) => ⟨id, metadata, created⟩

def describe (s : Summary) : String :=
  "KeyEntry \x7b id: " ++ s.id.describe ++ ", metadata: " ++ s.metadata.describe ++
    ", created_at: " ++ s.created.text ++ " \x7d"

end Summary

/-- A key as it is kept. Its material is sealed with the bytes of its name as associated data. -/
structure Entry where
  id : KeyId
  sealedText : Bytes
  nonce : Nonce
  created : Instant
  metadata : Metadata

namespace Entry

def summary (e : Entry) : Summary := ⟨e.id, e.metadata, e.created⟩

def schema : Json.Schema [KeyId, Bytes, Nonce, Instant, Metadata] :=
  .field "id" KeyId.codec none <| .field "ciphertext" .base64 none <|
    .field "nonce" (.sized 24) none <| .field "created_at" Instant.codec none <|
      .field "metadata" .dictionary (some .empty) .nil

def codec : Json.Codec Entry :=
  schema.codec "KeyRecord" (fun e => (e.id, e.sealedText, e.nonce, e.created, e.metadata, ()))
    fun (id, sealedText, nonce, created, metadata, ()) =>
      ⟨id, sealedText, nonce, created, metadata⟩

def describe (e : Entry) : String :=
  "KeyRecord \x7b id: " ++ e.id.describe ++ s!", ciphertext_len: {e.sealedText.length}, " ++
    "created_at: " ++ e.created.text ++ ", metadata: " ++ e.metadata.describe ++ " \x7d"

end Entry

end Custody
