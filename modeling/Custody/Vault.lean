import Custody.Snapshot

/-!
A vault keeps the entries of one keyring in memory. Key material is sealed before it is stored and
opened only when it is asked for; an entry that does not open does no harm to the others.
-/

namespace Custody

structure Vault where
  keyring : Keyring
  entryKey : SecretKey
  store : Store

namespace Vault

def entryKeyOf (master : SecretKey) : SecretKey := Secret.subkey master (Bytes.ofText "records")

def create (password : Bytes) (cost : Cost) (draw : Draw) : Except Failure Vault :=
  (Keyring.create password cost draw).map fun (keyring, master) =>
    ⟨keyring, entryKeyOf master, .empty⟩

def ofSnapshot (password : Bytes) (saved : Snapshot) : Except Failure Vault :=
  (saved.keyring.unlock password).map fun master =>
    ⟨saved.keyring, entryKeyOf master, saved.store⟩

def load (password : Bytes) (cost : Cost) (saved : Option Snapshot) (draw : Draw) :
    Except Failure Vault :=
  match saved with
  | some s => ofSnapshot password s
  | none => create password cost draw

/-- Stores key material under a name; tells whether it replaced other material. -/
def put (v : Vault) (id : KeyId) (material : Bytes) (metadata : Metadata) (draw : Draw) :
    Except Failure (Bool × Vault) :=
  if material = [] then .error (.invalidInput "Key material cannot be empty")
  else
    (Secret.encrypt v.entryKey.val draw.nonce id.bytes material).map fun sealedText =>
      let e : Entry := ⟨id, sealedText, draw.nonce, draw.now, metadata⟩
      (v.store.contains id.text, { v with store := v.store.insert e })

def get (v : Vault) (id : KeyId) : Except Failure Bytes :=
  match v.store.get? id with
  | none => .error (.notFound ("Key not found: " ++ id.text))
  | some e =>
    (Secret.decrypt v.entryKey.val e.nonce id.bytes e.sealedText).mapError fun _ =>
      .internal s!"Record '{id.text}' is corrupted"

/-- Removes what is stored under a name; tells whether there was anything. -/
def delete (v : Vault) (id : KeyId) : Bool × Vault :=
  (v.store.contains id.text, { v with store := v.store.erase id.text })

/-- What may be told of all keys, in ascending order of their names. -/
def list (v : Vault) : List Summary := v.store.toList.map Entry.summary

def contains (v : Vault) (id : KeyId) : Bool := v.store.contains id.text

def count (v : Vault) : Nat := v.store.size

def clear (v : Vault) : Nat × Vault := (v.count, { v with store := .empty })

def snapshot (v : Vault) : Snapshot := ⟨v.keyring, v.store⟩

end Vault

end Custody
