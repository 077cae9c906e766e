import Custody.Json.Tagged
import Custody.Proofs.Json.Schema

/-!
Choices that are read back as they are written. The tag names the alternative that wrote it, because no two
alternatives share a name, and the content is read by the schema it was written from.
-/

namespace Custody.Json

theorem readName_text {names : List String} {s : String} (known : s ∈ names) (src : Source) :
    readName src names (Json.text s) = .ok s := if_pos known

namespace Tagged

variable {α : Type} {t : Tagged α} {name title : String}

theorem variant_text {v : Variant α} (found : (t.variants.find? fun v => v.name == name) = some v)
    (src : Source) : (readName src t.names (Json.text name)).bind t.variant = .ok v := by
  have same : v.name = name := by simpa using List.find?_some found
  have known : name ∈ t.names := by
    rw [← same]
    exact List.mem_map_of_mem (List.mem_of_find?_eq_some found)
  rw [readName_text known]
  simp only [Except.bind, variant, found]

theorem relevant_tag (j : Json) (rest : List (Option String × Json)) :
    t.relevant ((some t.tag, j) :: rest) = .ok (some (true, j, rest)) := by
  rw [relevant, if_pos rfl]

theorem relevant_content (apart : t.content ≠ t.tag) (j : Json) (rest : List (Option String × Json)) :
    t.relevant ((some t.content, j) :: rest) = .ok (some (false, j, rest)) := by
  rw [relevant, if_neg apart, if_pos rfl]

theorem read_bare {a : α}
    (found : (t.variants.find? fun v => v.name == name) = some (.bare name title a)) (src : Source) :
    t.read src (t.bare name) = .ok a := by
  change t.readMembers src [(some t.tag, Json.text name)] = _
  rw [readMembers, relevant_tag]
  change ((readName src t.names (Json.text name)).bind t.variant).bind _ = _
  rw [variant_text found]
  rfl

theorem read_fields {ts : List Type} {schema : Schema ts} {make : Values ts → α} {vs : Values ts}
    (apart : t.content ≠ t.tag)
    (found : (t.variants.find? fun v => v.name == name) = some (.fields name title schema make))
    (distinct : schema.names.Nodup) (each : schema.Faithful vs) (src : Source) :
    t.read src (t.fields name (schema.members vs)) = .ok (make vs) := by
  have members := Schema.readMembers_members distinct each src
  change t.readMembers src [(some t.tag, Json.text name), (some t.content, record (schema.members vs))] = _
  rw [readMembers, relevant_tag]
  change ((readName src t.names (Json.text name)).bind t.variant).bind _ = _
  rw [variant_text found]
  change (t.relevant [(some t.content, record (schema.members vs))]).bind _ = _
  rw [relevant_content apart]
  change ((schema.readMembers src _).map make).bind _ = _
  rw [members]
  rfl

theorem bare_faithful {c : Codec α} {a : α} (reads : c.read = t.read) (written : c.write a = t.bare name)
    (found : (t.variants.find? fun v => v.name == name) = some (.bare name title a)) : c.Faithful a where
  plain := by
    rw [written]
    exact .record (List.forall_mem_singleton.mpr (.text name))
  read src := by
    rw [reads, written, read_bare found]

theorem fields_faithful {c : Codec α} {a : α} {ts : List Type} {schema : Schema ts} {make : Values ts → α}
    {vs : Values ts} (reads : c.read = t.read) (written : c.write a = t.fields name (schema.members vs))
    (apart : t.content ≠ t.tag)
    (found : (t.variants.find? fun v => v.name == name) = some (.fields name title schema make))
    (back : make vs = a) (distinct : schema.names.Nodup) (each : schema.Faithful vs) : c.Faithful a where
  plain := by
    rw [written]
    refine .record fun m member => ?_
    rcases List.mem_cons.mp member with rfl | member
    · exact .text name
    · cases List.mem_singleton.mp member
      exact .record (Schema.plain_members each)
  read src := by
    rw [reads, written, read_fields apart found distinct each, back]

end Tagged

end Custody.Json
