import Custody.Key.Store
import Custody.Keyring

/-!
All that is saved of a vault: its keyring and its entries, still sealed.
-/

namespace Custody

structure Snapshot where
  keyring : Keyring
  store : Store

namespace Snapshot

def schema : Json.Schema [Keyring, Store] :=
  .field "keyring" Keyring.codec none <| .field "state" Store.codec none .nil

def codec : Json.Codec Snapshot :=
  schema.codec "Snapshot" (fun s => (s.keyring, s.store, ())) fun (keyring, store, ()) =>
    ⟨keyring, store⟩

/-- The written form of a keyring and entries, in the order given. -/
def document (keyring : Keyring) (entries : List Entry) : Json :=
  .record [("keyring", Keyring.codec.write keyring), ("state", (Json.Codec.list Entry.codec).write entries)]

end Snapshot

end Custody
