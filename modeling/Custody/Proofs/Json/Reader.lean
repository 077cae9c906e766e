import Custody.Json.Reader
import Custody.Proofs.Json.Token

/-!
Plain documents are read back as they are written: those whose numbers are natural and whose strings hold
texts. The bytes lex to the tokens of the document, and the tokens make the document again.
-/

namespace Custody.Json

/-- Documents without fractions, negative numbers and strings that hold no text. -/
inductive Plain : Json → Prop where
  | null : Plain .null
  | bool (b : Bool) : Plain (.bool b)
  | nat (n : Nat) : Plain (.nat n)
  | text (s : String) : Plain (.text s)
  | array {items : List Json} (each : ∀ j ∈ items, Plain j) : Plain (.array items)
  | record {members : List (String × Json)} (each : ∀ m ∈ members, Plain m.2) : Plain (.record members)

mutual

def tokens : Json → List Token
  | .null => [.null]
  | .bool b => [.bool b]
  | .number n => [.number n]
  | .string s => [.string s]
  | .array [] => [.beginArray, .endArray]
  | .array (j :: rest) => .beginArray :: tokens j ++ itemTokens rest
  | .object [] => [.beginObject, .endObject]
  | .object ((s, j) :: rest) => .beginObject :: .string s :: .colon :: tokens j ++ memberTokens rest

def itemTokens : List Json → List Token
  | [] => [.endArray]
  | j :: rest => .comma :: tokens j ++ itemTokens rest

def memberTokens : List (Option String × Json) → List Token
  | [] => [.endObject]
  | (s, j) :: rest => .comma :: .string s :: .colon :: tokens j ++ memberTokens rest

end

namespace Reader

theorem tokens_eq_cons (j : Json) : ∃ t rest, tokens j = t :: rest ∧ t ≠ .endArray := by
  cases j with
  | array items => cases items <;> exact ⟨.beginArray, _, rfl, nofun⟩
  | object members => cases members <;> exact ⟨.beginObject, _, rfl, nofun⟩
  | null | bool | number | string => exact ⟨_, [], rfl, nofun⟩

/-- A first item is taken as any other; only an end of the array would make a difference. -/
theorem foldlM_firstItem (j : Json) (more : List Token) (layers : List Layer) :
    (tokens j ++ more).foldlM step (.firstItem layers) =
      (tokens j ++ more).foldlM step (.value (.array [] :: layers)) := by
  obtain ⟨t, rest, made, other⟩ := tokens_eq_cons j
  have same : step (.firstItem layers) t = step (.value (.array [] :: layers)) t := by
    cases t <;> first | rfl | exact absurd rfl other
  rw [made, List.cons_append, List.foldlM_cons, List.foldlM_cons, same]

mutual

theorem foldlM_tokens (j : Json) (layers : List Layer) :
    (tokens j).foldlM step (.value layers) = some (.done j layers) := by
  match j with
  | .null | .bool _ | .number _ | .string _ | .array [] | .object [] => rfl
  | .array (j :: rest) =>
    have first := foldlM_tokens j (.array [] :: layers)
    have last := foldlM_itemTokens rest j [] layers
    rw [tokens, List.cons_append, List.foldlM_cons]
    change ((tokens j ++ itemTokens rest).foldlM step (.firstItem layers)) = _
    rw [foldlM_firstItem, List.foldlM_append, first]
    exact last
  | .object ((s, j) :: rest) =>
    have first := foldlM_tokens j (.object [] s :: layers)
    have last := foldlM_memberTokens rest s j [] layers
    rw [tokens]
    change ((tokens j ++ memberTokens rest).foldlM step (.value (.object [] s :: layers))) = _
    rw [List.foldlM_append, first]
    exact last

theorem foldlM_itemTokens (rest : List Json) (j : Json) (before : List Json) (layers : List Layer) :
    (itemTokens rest).foldlM step (.done j (.array before :: layers)) =
      some (.done (.array (before.reverse ++ j :: rest)) layers) := by
  match rest with
  | [] => simp [itemTokens, step]
  | i :: rest =>
    have first := foldlM_tokens i (.array (j :: before) :: layers)
    have last := foldlM_itemTokens rest i (j :: before) layers
    rw [itemTokens, List.cons_append, List.foldlM_cons]
    change ((tokens i ++ itemTokens rest).foldlM step (.value (.array (j :: before) :: layers))) = _
    rw [List.foldlM_append, first, Option.bind_eq_bind, Option.bind_some, last]
    simp

theorem foldlM_memberTokens (rest : List (Option String × Json)) (s : Option String) (j : Json)
    (before : List (Option String × Json)) (layers : List Layer) :
    (memberTokens rest).foldlM step (.done j (.object before s :: layers)) =
      some (.done (.object (before.reverse ++ (s, j) :: rest)) layers) := by
  match rest with
  | [] => simp [memberTokens, step]
  | (other, i) :: rest =>
    have first := foldlM_tokens i (.object ((s, j) :: before) other :: layers)
    have last := foldlM_memberTokens rest other i ((s, j) :: before) layers
    rw [memberTokens]
    change ((tokens i ++ memberTokens rest).foldlM step (.value (.object ((s, j) :: before) other :: layers))) = _
    rw [List.foldlM_append, first, Option.bind_eq_bind, Option.bind_some, last]
    simp

end

end Reader

theorem ofTokens?_tokens (j : Json) : ofTokens? (tokens j) = some j := by
  rw [ofTokens?, Reader.foldlM_tokens]
  rfl

namespace Plain

open Token (Lexes IsMark)

theorem isMark : IsMark 91 .beginArray ∧ IsMark 93 .endArray ∧ IsMark 123 .beginObject ∧
    IsMark 125 .endObject ∧ IsMark 58 .colon ∧ IsMark 44 .comma :=
  ⟨⟨rfl, by decide, rfl, rfl⟩, ⟨rfl, by decide, rfl, rfl⟩, ⟨rfl, by decide, rfl, rfl⟩,
    ⟨rfl, by decide, rfl, rfl⟩, ⟨rfl, by decide, rfl, rfl⟩, ⟨rfl, by decide, rfl, rfl⟩⟩

theorem lexes_items {b : Bytes} {ts : List Token} (front : Lexes b ts) {items : List Json}
    (each : ∀ j ∈ items, Lexes j.render (tokens j)) :
    Lexes (b ++ renderItems items) (ts ++ itemTokens items) := by
  obtain ⟨-, close, -, -, -, comma⟩ := isMark
  induction items generalizing b ts with
  | nil => exact front.mark close .nil
  | cons j rest ih =>
    have longer := front.mark comma (each j List.mem_cons_self)
    have all := ih longer fun i member => each i (List.mem_cons_of_mem j member)
    simpa [renderItems, itemTokens] using all

theorem lexes_members {b : Bytes} {ts : List Token} (front : Lexes b ts) {members : List (String × Json)}
    (each : ∀ m ∈ members, Lexes m.2.render (tokens m.2)) :
    Lexes (b ++ renderMembers (members.map fun m => (some m.1, m.2)))
      (ts ++ memberTokens (members.map fun m => (some m.1, m.2))) := by
  obtain ⟨-, -, -, close, colon, comma⟩ := isMark
  induction members generalizing b ts with
  | nil => exact front.mark close .nil
  | cons m rest ih =>
    have named := front.mark comma (.text m.1)
    have longer := named.mark colon (each m List.mem_cons_self)
    have all := ih longer fun i member => each i (List.mem_cons_of_mem m member)
    simpa [renderMembers, memberTokens, renderString] using all

theorem lexes {j : Json} (plain : j.Plain) : Lexes j.render (tokens j) := by
  obtain ⟨openArray, endArray, openObject, endObject, colon, -⟩ := isMark
  induction plain with
  | null => exact .null
  | bool b => exact .bool b
  | nat n =>
    change Lexes (Numeral.ofNat n).render _
    rw [Numeral.render_ofNat]
    exact .nat n
  | text s => exact .text s
  | @array items _ ih =>
    cases items with
    | nil => exact Lexes.nil.mark openArray (Lexes.nil.mark endArray .nil)
    | cons j rest =>
      have first := Lexes.nil.mark openArray (ih j List.mem_cons_self)
      exact lexes_items first fun i member => ih i (List.mem_cons_of_mem j member)
  | @record members _ ih =>
    cases members with
    | nil => exact Lexes.nil.mark openObject (Lexes.nil.mark endObject .nil)
    | cons m rest =>
      have named := Lexes.nil.mark openObject (.text m.1)
      have first := named.mark colon (ih m List.mem_cons_self)
      have all := lexes_members first fun i member => ih i (List.mem_cons_of_mem m member)
      simpa [Json.record, render, tokens, renderString] using all

theorem parse?_render {j : Json} (plain : j.Plain) : parse? j.render = some j := by
  rw [parse?, plain.lexes.ofBytes?, Option.bind_some, ofTokens?_tokens]

end Plain

end Custody.Json
