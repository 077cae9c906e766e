import Custody.Key.Entry

/-!
The entries of a vault, in ascending order of their names. A list of entries makes a store only if no
sealed text is empty and no name comes twice.
-/

namespace Custody

abbrev Store := Catalog fun e : Entry => e.id.text

namespace Store

def get? (s : Store) (id : KeyId) : Option Entry := s.find? id.text

/-- Adds the entries of a list; the first that may not be added is the failure. -/
def addAll (s : Store) : List Entry → Except Failure Store
  | [] => .ok s
  | e :: rest =>
    if e.sealedText = [] then .error (.corrupt s!"record '{e.id.text}' has empty ciphertext")
    else if s.contains e.id.text then .error (.corrupt s!"duplicate record '{e.id.text}'")
    else addAll (s.insert e) rest

def ofList (l : List Entry) : Except Failure Store := addAll .empty l

def codec : Json.Codec Store :=
  (Json.Codec.list Entry.codec).refine Catalog.toList fun l =>
    match ofList l with
    | .ok s => .ok s
    | .error e => .error (.refused e.message)

end Store

end Custody
