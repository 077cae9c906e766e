import Custody.Json.Canonical
import Custody.Snapshot

/-!
The saved form of a vault. A header names the format, its version, the cost of the key derivation, a
salt, a nonce and the length of the body; the body is the snapshot, sealed under a key derived from a
password of its own, with the header up to the salt as associated data.
-/

namespace Custody

/-- The operations on secrets that reading and writing an archive needs. -/
structure Suite where
  deriveKey : Bytes → Salt → Cost → Except Failure SecretKey
  encrypt : Bytes → Nonce → Bytes → Bytes → Except Failure Bytes
  decrypt : Bytes → Nonce → Bytes → Bytes → Except Failure Bytes

def Suite.standard : Suite := ⟨Secret.deriveKey, Secret.encrypt, Secret.decrypt⟩

namespace Archive

def magic : Bytes := Bytes.ofText "KLDUMP"

def version : Nat := 1

def headerLength : Nat := 6 + 2 + 12 + 32 + 24 + 8

/-- The part of the header that is associated data of the body. -/
def preamble (cost : Cost) (salt : Salt) : Bytes :=
  magic ++ Bytes.bigEndian 2 version ++ Bytes.bigEndian 4 cost.memory.toNat ++
    Bytes.bigEndian 4 cost.time.toNat ++ Bytes.bigEndian 4 cost.parallelism.toNat ++ salt.val

def assemble (cost : Cost) (salt : Salt) (nonce : Nonce) (body : Bytes) : Bytes :=
  preamble cost salt ++ nonce.val ++ Bytes.bigEndian 8 body.length ++ body

def sealDocument (suite : Suite) (document : Json) (password : Bytes) (cost : Cost) (draw : Draw) :
    Except Failure Bytes :=
  if !cost.withinLimits then
    .error (.invalidInput "KDF parameters exceed what a dump can be restored with")
  else
    (suite.deriveKey password draw.salt cost).bind fun key =>
      (suite.encrypt key.val draw.nonce (preamble cost draw.salt) document.render).map
        (assemble cost draw.salt draw.nonce)

def encode (snapshot : Snapshot) (password : Bytes) (cost : Cost) (draw : Draw) :
    Except Failure Bytes :=
  sealDocument .standard (Snapshot.codec.write snapshot) password cost draw

structure Parts where
  cost : Cost
  salt : Salt
  nonce : Nonce
  preamble : Bytes
  body : Bytes

def slice? (b : Bytes) (start n : Nat) : Option (Bytes.Sized n) :=
  let s := (b.drop start).take n
  if h : s.length = n then some ⟨s, h⟩ else none

def numberAt (b : Bytes) (start n : Nat) : Nat := Bytes.ofBigEndian ((b.drop start).take n)

/-- Takes an archive apart. Everything is checked that can be checked without the password. -/
def split (b : Bytes) : Except Failure Parts :=
  let cost : Cost :=
    ⟨(numberAt b 8 4).toUInt32, (numberAt b 12 4).toUInt32, (numberAt b 16 4).toUInt32⟩
  let found := numberAt b 6 2
  let declared := numberAt b 76 8
  let body := b.drop headerLength
  match decide (headerLength ≤ b.length), slice? b 20 32, slice? b 52 24 with
  | true, some salt, some nonce =>
    if b.take 6 ≠ magic then .error (.corrupt "not a dump file")
    else if found ≠ version then .error (.corrupt s!"unsupported dump version {found}")
    else if !cost.withinLimits then .error (.corrupt "kdf parameters out of range")
    else if body.length ≠ declared then
      .error (.corrupt s!"dump body is {body.length} bytes, header declares {declared}")
    else .ok ⟨cost, salt, nonce, b.take 52, body⟩
  | _, _, _ => .error (.corrupt "dump header is truncated")

/-- The key of an archive. That none can be derived is a fault of the archive. -/
def keyOf (suite : Suite) (p : Parts) (password : Bytes) : Except Failure SecretKey :=
  match suite.deriveKey password p.salt p.cost with
  | .error (.crypto why) => .error (.corrupt why)
  | r => r

def unpack (payload : Bytes) : Except Failure Snapshot :=
  match Snapshot.codec.decode payload with
  | .ok s => .ok s
  | .error fault => .error (.corrupt ("dump payload is unreadable: " ++ fault.message))

def decodeWith (suite : Suite) (b password : Bytes) : Except Failure Snapshot :=
  (split b).bind fun p =>
    (keyOf suite p password).bind fun key =>
      (suite.decrypt key.val p.nonce p.preamble p.body).bind unpack

def decode (b password : Bytes) : Except Failure Snapshot := decodeWith .standard b password

end Archive

end Custody
