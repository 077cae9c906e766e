import Custody.Json.Schema

/-!
Choices written as an object with a tag, which names the alternative, and a content, which holds its
fields. Tag and content may come in either order: a content that comes first is put aside until the
tag is known.
-/

namespace Custody.Json

/-- An alternative: a bare name, or a record under a name. The title is how messages call it. -/
inductive Variant (α : Type) : Type 1 where
  | bare (name title : String) (a : α)
  | fields {ts : List Type} (name title : String) (schema : Schema ts) (make : Values ts → α)

def Variant.name {α : Type} : Variant α → String
  | .bare name _ _ => name
  | .fields name _ _ _ => name

def Variant.read {α : Type} (src : Source) : Variant α → Json → Except Fault α
  | .bare _ title a, j =>
    match j with
    | .null => .ok a
    | j => .error (mismatch ("unit variant " ++ title) j)
  | .fields _ title schema make, j =>
    match j with
    | .object members => (schema.readMembers src members).map make
    | j => .error (mismatch ("struct variant " ++ title) j)

structure Tagged (α : Type) where
  title : String
  tag : String
  content : String
  variants : List (Variant α)
  room : Nat

/-- Tells whether a bare name may be followed by this document. Among parts put aside an empty
object counts as nothing. -/
def isUnit (src : Source) : Json → Bool
  | .null => true
  | .object [] => src == .aside
  | _ => false

/-- Reads one of several names: a string, or an object whose only member has the name and no
value. -/
def readName (src : Source) (names : List String) (j : Json) : Except Fault String :=
  let pick (s : String) : Except Fault String :=
    if s ∈ names then .ok s else .error (.unknownVariant s names)
  match j with
  | .string (some s) => pick s
  | .object members =>
    match src, members with
    | .text, [] => .error .malformed
    | .text, (none, _) :: _ => .error .malformed
    | .text, (some s, v) :: rest =>
      (pick s).bind fun s =>
        if !isUnit src v then .error (mismatch "unit" v)
        else if rest ≠ [] then .error .malformed
        else .ok s
    | _, [(some s, v)] =>
      (pick s).bind fun s => if isUnit src v then .ok s else .error (mismatch "unit" v)
    | _, _ => .error (.invalidValue .map "map with a single key")
  | j => if src = .text then .error .malformed else .error (mismatch "string or map" j)

mutual

/-- Tells whether every string and number of a document means something. -/
def readable : Json → Bool
  | .number n => match n.value with
    | .excessive => false
    | _ => true
  | .string s => s.isSome
  | .array items => readableItems items
  | .object members => readableMembers members
  | _ => true

def readableItems : List Json → Bool
  | [] => true
  | j :: rest => readable j && readableItems rest

def readableMembers : List (Option String × Json) → Bool
  | [] => true
  | (s, j) :: rest => s.isSome && readable j && readableMembers rest

end

namespace Tagged

variable {α : Type} (t : Tagged α)

def names : List String := t.variants.map Variant.name

def variant (s : String) : Except Fault (Variant α) :=
  match t.variants.find? fun v => v.name == s with
  | some v => .ok v
  | none => .error (.unknownVariant s t.names)

/-- The first member that is the tag (`true`) or the content (`false`), with its value and what
follows it. -/
def relevant : List (Option String × Json) →
    Except Fault (Option (Bool × Json × List (Option String × Json)))
  | [] => .ok none
  | (none, _) :: _ => .error .malformed
  | (some s, j) :: rest =>
    if s = t.tag then .ok (some (true, j, rest))
    else if s = t.content then .ok (some (false, j, rest))
    else relevant rest

/-- Makes sure that neither tag nor content comes again. -/
def finish (a : α) (members : List (Option String × Json)) : Except Fault α :=
  (t.relevant members).bind fun
    | none => .ok a
    | some (true, _) => .error (.duplicateField t.tag)
    | some (false, _) => .error (.duplicateField t.content)

def withoutContent : Variant α → Except Fault α
  | .bare _ _ a => .ok a
  | .fields _ _ _ _ => .error (.missingField t.content)

/-- Puts a content aside; where it stands in a text it must be readable and not nest too deep. -/
def putAside (src : Source) (j : Json) : Except Fault Json :=
  if src = .text ∧ !(j.readable && j.shallow t.room) then .error .malformed else .ok j

def readMembers (src : Source) (members : List (Option String × Json)) : Except Fault α :=
  (t.relevant members).bind fun
    | none => .error (.missingField t.tag)
    | some (true, tag, rest) =>
      (readName src t.names tag).bind t.variant |>.bind fun v =>
        (t.relevant rest).bind fun
          | none => t.withoutContent v
          | some (true, _) => .error (.duplicateField t.tag)
          | some (false, content, rest) => (v.read src content).bind fun a => t.finish a rest
    | some (false, content, rest) =>
      (t.putAside src content).bind fun content =>
        (t.relevant rest).bind fun
          | none => .error (.missingField t.tag)
          | some (false, _) => .error (.duplicateField t.content)
          | some (true, tag, rest) =>
            (readName src t.names tag).bind t.variant |>.bind fun v =>
              (v.read .aside content).bind fun a => t.finish a rest

def readItems (src : Source) (items : List Json) : Except Fault α :=
  let expected := "adjacently tagged enum " ++ t.title
  match items with
  | [] => .error (.invalidLength 0 expected)
  | tag :: rest =>
    let name := match tag with
      | .string (some s) => t.variant s
      | j => .error (mismatch "variant identifier" j)
    name.bind fun v =>
      match rest with
      | [] => .error (.invalidLength 1 expected)
      | content :: rest =>
        (v.read src content).bind fun a =>
          if rest = [] then .ok a else .error (Schema.surplus src items.length 2)

def read (src : Source) : Json → Except Fault α
  | .object members => t.readMembers src members
  | .array items => t.readItems src items
  | j => .error (mismatch ("adjacently tagged enum " ++ t.title) j)

def bare (name : String) : Json := record [(t.tag, Json.text name)]

def fields (name : String) (members : List (String × Json)) : Json :=
  record [(t.tag, Json.text name), (t.content, record members)]

end Tagged

end Custody.Json
