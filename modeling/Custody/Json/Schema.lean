import Custody.Json.Codec

/-!
Records with named fields. A schema lists the fields in order; from it a record is written as an
object, read from an object whose members come in any order, and read from an array that lists the
fields without their names.
-/

namespace Custody.Json

/-- The fields of a record, with their types. A field with a fallback may be left out. -/
inductive Schema : List Type → Type 1 where
  | nil : Schema []
  | field {α : Type} {ts : List Type} (name : String) (codec : Codec α) (fallback : Option α)
      (rest : Schema ts) : Schema (α :: ts)

def Values : List Type → Type
  | [] => Unit
  | α :: ts => α × Values ts

def Slots : List Type → Type
  | [] => Unit
  | α :: ts => Option α × Slots ts

namespace Schema

def blank : {ts : List Type} → Schema ts → Slots ts
  | _, .nil => ()
  | _, .field _ _ _ rest => (none, rest.blank)

def size : {ts : List Type} → Schema ts → Nat
  | _, .nil => 0
  | _, .field _ _ _ rest => rest.size + 1

/-- Reads one member into its slot. A name that is no field's is passed over. -/
def put (src : Source) (s : String) (j : Json) :
    {ts : List Type} → Schema ts → Slots ts → Except Fault (Slots ts)
  | _, .nil, () => .ok ()
  | _, .field name codec _ rest, (slot, slots) =>
    if name = s then
      match slot with
      | some _ => .error (.duplicateField name)
      | none => (codec.read src j).map fun a => (some a, slots)
    else (put src s j rest slots).map fun slots => (slot, slots)

def putAll (src : Source) {ts : List Type} (schema : Schema ts) :
    List (Option String × Json) → Slots ts → Except Fault (Slots ts)
  | [], slots => .ok slots
  | (none, _) :: _, _ => .error .malformed
  | (some s, j) :: rest, slots => (put src s j schema slots).bind (putAll src schema rest)

/-- The record, once every member has been read; the first field that is missing is the fault. -/
def close : {ts : List Type} → Schema ts → Slots ts → Except Fault (Values ts)
  | _, .nil, () => .ok ()
  | _, .field name _ fallback rest, (slot, slots) =>
    match slot.or fallback with
    | none => .error (.missingField name)
    | some a => (rest.close slots).map fun vs => (a, vs)

def readMembers (src : Source) {ts : List Type} (schema : Schema ts)
    (members : List (Option String × Json)) : Except Fault (Values ts) :=
  (schema.putAll src members schema.blank).bind schema.close

/-- The fault of an array with more items than there are fields. -/
def surplus (src : Source) (length fields : Nat) : Fault :=
  match src with
  | .text => .malformed
  | .aside => .invalidLength length s!"{fields} elements in sequence"
  | .value => .invalidLength length "fewer elements in array"

def readItems (src : Source) (expected : String) (length : Nat) :
    {ts : List Type} → Schema ts → (i : Nat) → List Json → Except Fault (Values ts)
  | _, .nil, _, [] => .ok ()
  | _, .nil, i, _ => .error (surplus src length i)
  | _, .field _ _ fallback rest, i, [] =>
    match fallback with
    | none => .error (.invalidLength i expected)
    | some a => (readItems src expected length rest (i + 1) []).map fun vs => (a, vs)
  | _, .field _ codec _ rest, i, j :: items =>
    (codec.read src j).bind fun a =>
      (readItems src expected length rest (i + 1) items).map fun vs => (a, vs)

def members : {ts : List Type} → Schema ts → Values ts → List (String × Json)
  | _, .nil, () => []
  | _, .field name codec _ rest, (a, vs) => (name, codec.write a) :: rest.members vs

def read (title : String) {ts : List Type} (schema : Schema ts) (src : Source) :
    Json → Except Fault (Values ts)
  | .object members => schema.readMembers src members
  | .array items =>
    schema.readItems src s!"struct {title} with {schema.size} elements" items.length 0 items
  | j => .error (mismatch ("struct " ++ title) j)

def codec {α : Type} {ts : List Type} (title : String) (schema : Schema ts)
    (view : α → Values ts) (make : Values ts → α) : Codec α where
  write a := record (schema.members (view a))
  read src j := (schema.read title src j).map make

end Schema

end Custody.Json
