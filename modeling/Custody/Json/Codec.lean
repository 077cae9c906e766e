import Custody.Catalog
import Custody.Fault
import Custody.Json.Basic
import Custody.Text.Base64

/-!
Codecs: how a type of value is written as a document and read from one. Reading names the first
fault. It depends a little on where the document comes from: straight from a text, from a part that
was put aside before its type was known, or from a document that is already a value.
-/

namespace Custody.Json

/-- Where a document that is being read comes from. -/
inductive Source where
  | text
  | aside
  | value
deriving DecidableEq, Repr

/-- What a document is, unless it is a string or number that means nothing. -/
def found? : Json → Option Found
  | .null => some .null
  | .bool b => some (.boolean b)
  | .number n =>
    match n.value with
    | .natural k => some (.integer k)
    | .negative k => some (.integer (-k))
    | .real x => some (.real ((Bytes.text? (Numeral.ofFloat .document x).render).getD ""))
    | .excessive => none
  | .string (some s) => some (.text s)
  | .string none => none
  | .array _ => some .sequence
  | .object _ => some .map

def mismatch (expected : String) (j : Json) : Fault :=
  match j.found? with
  | some found => .invalidType found expected
  | none => .malformed

structure Codec (α : Type) where
  write : α → Json
  read : Source → Json → Except Fault α

namespace Codec

/-- A codec for values that are written as values of another type and checked when read. -/
def refine {α β : Type} (c : Codec α) (view : β → α) (check : α → Except Fault β) : Codec β where
  write b := c.write (view b)
  read src j := (c.read src j).bind check

def text : Codec String where
  write := Json.text
  read _
    | .string (some s) => .ok s
    | j => .error (mismatch "a string" j)

def boolean : Codec Bool where
  write := .bool
  read _
    | .bool b => .ok b
    | j => .error (mismatch "a boolean" j)

def natural (limit : Nat) (title : String) : Codec Nat where
  write := nat
  read _
    | .number n =>
      match n.value with
      | .natural k => if k < limit then .ok k else .error (.invalidValue (.integer k) title)
      | .negative k => .error (.invalidValue (.integer (-k)) title)
      | _ => .error (mismatch title (.number n))
    | j => .error (mismatch title j)

def count : Codec Nat := natural UInt64.size "usize"

def word64 : Codec UInt64 :=
  (natural UInt64.size "u64").refine UInt64.toNat fun n => .ok n.toUInt64

def word32 : Codec UInt32 :=
  (natural UInt32.size "u32").refine UInt32.toNat fun n => .ok n.toUInt32

def base64 : Codec Bytes :=
  text.refine Base64.text fun s =>
    match Base64.decode (Bytes.ofText s) with
    | .ok b => .ok b
    | .error flaw => .error (.refused flaw.message)

def sized (n : Nat) : Codec (Bytes.Sized n) :=
  base64.refine Subtype.val fun b =>
    if h : b.length = n then .ok ⟨b, h⟩
    else .error (.invalidLength b.length "a fixed-size byte array")

def readItems {α : Type} (c : Codec α) (src : Source) : List Json → Except Fault (List α)
  | [] => .ok []
  | j :: rest => (c.read src j).bind fun a => (readItems c src rest).map (a :: ·)

def list {α : Type} (c : Codec α) : Codec (List α) where
  write l := .array (l.map c.write)
  read src
    | .array items => readItems c src items
    | j => .error (mismatch "a sequence" j)

def readEntries (src : Source) (done : Catalog (Prod.fst : String × String → String)) :
    List (Option String × Json) → Except Fault (Catalog (Prod.fst : String × String → String))
  | [] => .ok done
  | (none, _) :: _ => .error .malformed
  | (some s, j) :: rest => (text.read src j).bind fun t => readEntries src (done.insert (s, t)) rest

/-- Dictionaries of texts; of a repeated name the last text counts. -/
def dictionary : Codec (Catalog (Prod.fst : String × String → String)) where
  write c := record (c.toList.map fun m => (m.1, Json.text m.2))
  read src
    | .object members => readEntries src .empty members
    | j => .error (mismatch "a map" j)

end Codec

end Custody.Json
