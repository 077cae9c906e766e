import Custody.Json.Schema
import Custody.Secret
import Custody.Time.Reader

/-!
A keyring holds what is needed to derive the master key from the operator's password, and a sealed
text by which a wrong password is told from the right one.
-/

namespace Custody

/-- What chance and the clock supply to one operation. -/
structure Draw where
  salt : Salt
  nonce : Nonce
  now : Instant
  /-- The name of a temporary file. -/
  scratch : String

structure Keyring where
  salt : Salt
  cost : Cost
  check : Bytes
  checkNonce : Nonce
  created : Instant

namespace Keyring

def checkText : Bytes := Bytes.ofText "KEYLOCK_KEY_VERIFICATION_V1"

def checkKey (master : SecretKey) : SecretKey := Secret.subkey master (Bytes.ofText "key-check")

def create (password : Bytes) (cost : Cost) (draw : Draw) : Except Failure (Keyring × SecretKey) :=
  (Secret.deriveKey password draw.salt cost).bind fun master =>
    (Secret.encrypt (checkKey master).val draw.nonce [] checkText).map fun check =>
      (⟨draw.salt, cost, check, draw.nonce, draw.now⟩, master)

def unlock (k : Keyring) (password : Bytes) : Except Failure SecretKey :=
  (Secret.deriveKey password k.salt k.cost).bind fun master =>
    (Secret.decrypt (checkKey master).val k.checkNonce [] k.check).bind fun plain =>
      if Secret.same plain checkText then .ok master else .error .authentication

def schema : Json.Schema [Salt, Cost, Bytes, Nonce, Instant] :=
  .field "salt" (.sized 32) none <| .field "kdf_params" Cost.codec none <|
    .field "key_check" .base64 none <| .field "key_check_nonce" (.sized 24) none <|
      .field "created_at" Instant.codec none .nil

def codec : Json.Codec Keyring :=
  schema.codec "Keyring" (fun k => (k.salt, k.cost, k.check, k.checkNonce, k.created, ()))
    fun (salt, cost, check, checkNonce, created, ()) => ⟨salt, cost, check, checkNonce, created⟩

end Keyring

end Custody
