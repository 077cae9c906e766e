/-!
Collections whose items have names. Items stand in ascending order of their names and each name
occurs once, so two catalogs that hold the same items are equal.
-/

namespace Custody

/-- Items in ascending order of their names, each name once. -/
structure Catalog {α : Type} (name : α → String) where
  toList : List α
  sorted : toList.Pairwise fun a b => name a < name b

namespace Catalog

variable {α : Type} {name : α → String}

def empty : Catalog name := ⟨[], .nil⟩

instance : Inhabited (Catalog name) := ⟨empty⟩

def size (c : Catalog name) : Nat := c.toList.length

def find? (c : Catalog name) (s : String) : Option α := c.toList.find? fun a => name a == s

def contains (c : Catalog name) (s : String) : Bool := (c.find? s).isSome

/-- Puts an item at its place in a sorted list, instead of one of the same name. -/
def place (name : α → String) (x : α) : List α → List α
  | [] => [x]
  | a :: rest =>
    if name x < name a then x :: a :: rest
    else if name x = name a then x :: rest
    else a :: place name x rest

theorem mem_place {x b : α} {l : List α} (h : b ∈ place name x l) : b = x ∨ b ∈ l := by
  induction l with
  | nil => simpa [place] using h
  | cons a rest ih =>
    simp only [place] at h
    split at h
    · simpa using h
    · split at h
      · rcases List.mem_cons.mp h with h | h <;> simp [h]
      · rcases List.mem_cons.mp h with h | h
        · simp [h]
        · rcases ih h with h | h <;> simp [h]

theorem place_sorted (x : α) {l : List α} (h : l.Pairwise fun a b => name a < name b) :
    (place name x l).Pairwise fun a b => name a < name b := by
  induction l with
  | nil => simp [place]
  | cons a rest ih =>
    obtain ⟨first, tail⟩ := List.pairwise_cons.mp h
    simp only [place]
    split
    case isTrue hx =>
      refine List.pairwise_cons.mpr ⟨?_, h⟩
      intro b hb
      rcases List.mem_cons.mp hb with rfl | hb
      · exact hx
      · exact String.lt_trans hx (first b hb)
    case isFalse hx =>
      split
      case isTrue he => exact List.pairwise_cons.mpr ⟨fun b hb => he ▸ first b hb, tail⟩
      case isFalse he =>
        refine List.pairwise_cons.mpr ⟨?_, ih tail⟩
        intro b hb
        rcases mem_place hb with rfl | hb
        · apply Classical.byContradiction
          intro hn
          exact he (String.le_antisymm hn hx)
        · exact first b hb

def insert (c : Catalog name) (x : α) : Catalog name := ⟨place name x c.toList, place_sorted x c.sorted⟩

def erase (c : Catalog name) (s : String) : Catalog name :=
  ⟨c.toList.filter fun a => name a != s, c.sorted.filter _⟩

/-- The catalog of a list; of two items with one name the later stays. -/
def ofList (l : List α) : Catalog name := l.foldl insert empty

end Catalog

end Custody
