import Custody.Json.Canonical
import Custody.Proofs.Catalog
import Custody.Proofs.Except
import Custody.Proofs.Json.Reader
import Custody.Proofs.Text.Base64
import Mathlib.Data.List.Basic

/-!
Codecs that read what they write. A value is kept faithfully if it is written as a plain document and read
back from it; a codec is stable if every value that it reads is kept faithfully.
-/

namespace Custody.Json.Codec

variable {α β : Type}

/-- The value is written as a plain document and read back from it. -/
structure Faithful (c : Codec α) (a : α) : Prop where
  plain : (c.write a).Plain
  read : ∀ src, c.read src (c.write a) = .ok a

/-- Every value that is read is kept faithfully. -/
def Stable (c : Codec α) : Prop := ∀ src j a, c.read src j = .ok a → c.Faithful a

theorem Faithful.decode_encode {c : Codec α} {a : α} (h : c.Faithful a) : c.decode (c.encode a) = .ok a := by
  rw [decode, encode, h.plain.parse?_render]
  exact h.read .text

theorem stable_of_faithful {c : Codec α} (h : ∀ a, c.Faithful a) : c.Stable := fun _ _ a _ => h a

theorem Faithful.refine {c : Codec α} {view : β → α} {check : α → Except Fault β} {b : β}
    (h : c.Faithful (view b)) (back : check (view b) = .ok b) : (c.refine view check).Faithful b where
  plain := h.plain
  read src := by
    change (c.read src (c.write (view b))).bind check = _
    rw [h.read]
    exact back

theorem text_faithful (s : String) : text.Faithful s := ⟨.text s, fun _ => rfl⟩

theorem value_ofNat {n : Nat} (small : n < UInt64.size) : (Numeral.ofNat n).value = .natural n := by
  unfold Numeral.value
  rw [if_pos ⟨⟨rfl, rfl⟩, rfl, small⟩]
  rfl

theorem natural_faithful {limit n : Nat} (title : String) (bound : n < limit) (small : n < UInt64.size) :
    (natural limit title).Faithful n where
  plain := .nat n
  read src := by
    simp only [natural, nat, value_ofNat small, if_pos bound]

theorem word32_faithful (n : UInt32) : word32.Faithful n :=
  (natural_faithful "u32" n.toNat_lt (Nat.lt_trans n.toNat_lt (by decide))).refine (by simp)

theorem base64_faithful (b : Bytes) : base64.Faithful b := by
  refine (text_faithful (Base64.text b)).refine ?_
  rw [Base64.ofText_text, Base64.decode_encode]

theorem length_le_renderText (s : String) : s.length ≤ (renderText s).length := by
  have escaped (b : Bytes) : b.length ≤ (b.flatMap escape).length := by
    induction b with
    | nil => exact Nat.le_refl _
    | cons c b ih =>
      have some : 0 < (escape c).length := by
        unfold escape
        split_ifs <;> exact Nat.succ_pos _
      rw [List.flatMap_cons, List.length_append, List.length_cons]
      omega
  have bytes := Bytes.length_le_ofText s
  have all := escaped (Bytes.ofText s)
  simp only [renderText, List.length_append, List.length_cons]
  omega

theorem length_render_base64 (b : Bytes) : (base64.write b).render.length = 4 * ((b.length + 2) / 3) + 2 := by
  have symbols : ∀ v < 64, escape (Base64.symbol v) = [Base64.symbol v] := by decide
  have plain : ∀ c ∈ Base64.encode b, escape c = [c] := by
    intro c member
    rcases Base64.mem_encode member with rfl | ⟨v, small, rfl⟩
    · rfl
    · exact symbols v small
  have same : (Base64.encode b).flatMap escape = Base64.encode b := by
    rw [List.flatMap_congr plain, List.flatMap_singleton']
  change (renderText (Base64.text b)).length = _
  rw [renderText, Base64.ofText_text, same, ← Base64.length_encode]
  simp

theorem sized_faithful {n : Nat} (b : Bytes.Sized n) : (sized n).Faithful b :=
  (base64_faithful b.val).refine (dif_pos b.property)

theorem readItems_write {c : Codec α} {l : List α} (each : ∀ a ∈ l, c.Faithful a) (src : Source) :
    readItems c src (l.map c.write) = .ok l := by
  induction l with
  | nil => rfl
  | cons a l ih =>
    have first := (each a List.mem_cons_self).read src
    have rest := ih fun b member => each b (List.mem_cons_of_mem a member)
    rw [List.map_cons, readItems, first, rest]
    rfl

theorem list_faithful {c : Codec α} {l : List α} (each : ∀ a ∈ l, c.Faithful a) : (list c).Faithful l where
  plain := by
    refine .array fun j member => ?_
    obtain ⟨a, inside, rfl⟩ := List.mem_map.mp member
    exact (each a inside).plain
  read src := readItems_write each src

theorem mem_readItems {c : Codec α} {src : Source} {items : List Json} {l : List α}
    (read : readItems c src items = .ok l) : ∀ a ∈ l, ∃ j, c.read src j = .ok a := by
  induction items generalizing l with
  | nil =>
    cases read
    nofun
  | cons j items ih =>
    obtain ⟨a, first, rest⟩ := Except.bind_eq_ok.mp read
    obtain ⟨t, others, rfl⟩ := Except.map_eq_ok.mp rest
    intro b member
    rcases List.mem_cons.mp member with rfl | member
    · exact ⟨j, first⟩
    · exact ih others b member

theorem list_read {c : Codec α} {src : Source} {j : Json} {l : List α}
    (read : (list c).read src j = .ok l) : ∀ a ∈ l, ∃ j, c.read src j = .ok a := by
  cases j with
  | array items => exact mem_readItems read
  | null | bool | number | string | object => cases read

theorem readEntries_write (src : Source) (l : List (String × String))
    (done : Catalog (Prod.fst : String × String → String)) :
    readEntries src done (l.map fun m => (some m.1, Json.text m.2)) = .ok (l.foldl Catalog.insert done) := by
  induction l generalizing done with
  | nil => rfl
  | cons m l ih => exact ih (done.insert m)

theorem dictionary_faithful (m : Catalog (Prod.fst : String × String → String)) : dictionary.Faithful m where
  plain := by
    refine .record fun p member => ?_
    obtain ⟨q, -, rfl⟩ := List.mem_map.mp member
    exact .text q.2
  read src := by
    have written := readEntries_write src m.toList .empty
    rw [Catalog.foldl_insert_toList] at written
    rw [← written]
    simp only [dictionary, record, List.map_map]
    rfl

end Custody.Json.Codec
