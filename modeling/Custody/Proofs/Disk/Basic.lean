import Custody.Disk.Basic
import Custody.Proofs.Catalog
import Custody.Proofs.Except
import Mathlib.Tactic.SplitIfs

/-!
What stands on a disk after a change, and which paths still lead where they led. A path goes by folders
only, so it leads to the same place as long as the folders stay.
-/

namespace Custody

theorem Place.child_text_inj {q : Place} {a b : String} (same : (q.child a).text = (q.child b).text) : a = b := by
  have joined : "/".intercalate (q.names ++ [a]) = "/".intercalate (q.names ++ [b]) :=
    (String.append_right_inj "/").mp same
  by_cases top : q.names = []
  · simpa [top] using joined
  · have apart (name : String) := String.intercalate_append_of_ne_nil (s := "/") top (List.cons_ne_nil name [])
    rw [apart a, apart b, String.append_right_inj] at joined
    simpa using joined

namespace Disk

variable {d e : Disk} {p : Path} {q x : Place} {n : Node} {b : Bytes}

theorem at?_congr {y : Place} (left : x ≠ .root) (right : y ≠ .root) (same : x.text = y.text) :
    d.at? x = d.at? y := by
  rw [at?, at?, if_neg left, if_neg right, same]

theorem ne_root_of_free (free : d.at? x ≠ some .folder) : x ≠ .root := by
  rintro rfl
  exact free (if_pos rfl)

theorem at?_set (inside : x ≠ .root) : (d.set q n).at? x = if q.text = x.text then some n else d.at? x := by
  simp only [at?, if_neg inside, set, Catalog.find?_insert]
  by_cases same : q.text = x.text
  · rw [if_pos same, if_pos same]
    rfl
  · rw [if_neg same, if_neg same]

theorem at?_set_other (apart : q.text ≠ x.text) : (d.set q n).at? x = d.at? x := by
  by_cases root : x = .root
  · subst root
    rfl
  · rw [at?_set root, if_neg apart]

theorem set_set (d : Disk) (q : Place) (n m : Node) : (d.set q n).set q m = d.set q m := by
  refine congrArg (Disk.mk d.home) (Catalog.ext_find? fun s => ?_)
  simp only [set, Catalog.find?_insert]
  split <;> rfl

theorem erase_set (free : d.at? q = none) : (d.set q n).erase q = d := by
  have inside : q ≠ .root := ne_root_of_free (d := d) (by simp [free])
  have none : d.nodes.find? q.text = none := by simpa [at?, inside] using free
  refine congrArg (Disk.mk d.home) (Catalog.ext_find? fun s => ?_)
  simp only [set, Catalog.find?_erase, Catalog.find?_insert]
  by_cases same : s = q.text
  · rw [if_pos same, same, none]
  · rw [if_neg same, if_neg (Ne.symm same)]

theorem set_eq_self (inside : q ≠ .root) (stands : d.at? q = some n) : d.set q n = d := by
  rw [at?, if_neg inside] at stands
  obtain ⟨⟨name, m⟩, found, rfl⟩ := Option.map_eq_some_iff.mp stands
  have named : name = q.text := Catalog.name_of_find? found
  subst named
  refine congrArg (Disk.mk d.home) (Catalog.ext_find? fun s => ?_)
  rw [Catalog.find?_insert]
  split
  · rename_i same
    rw [← same]
    exact found.symm
  · rfl

theorem at?_set_file_folder (free : d.at? q ≠ some .folder) :
    (d.set q (.file b)).at? x = some .folder ↔ d.at? x = some .folder := by
  by_cases root : x = .root
  · subst root
    exact Iff.rfl
  · rw [at?_set root]
    split
    · rename_i same
      have other : d.at? x ≠ some .folder := at?_congr (ne_root_of_free free) root same ▸ free
      exact ⟨nofun, fun folder => absurd folder other⟩
    · rfl

theorem walk_kept (kept : ∀ x, d.at? x = some .folder → e.at? x = some .folder) {names : List String}
    (walked : d.walk q names = .ok x) : e.walk q names = .ok x := by
  induction names generalizing q with
  | nil => exact walked
  | cons name rest ih =>
    rw [walk] at walked ⊢
    split at walked
    · cases walked
    · rename_i fits
      rw [if_neg fits]
      cases found : d.at? (q.step name) with
      | none =>
        rw [found] at walked
        cases walked
      | some node =>
        rw [found] at walked
        cases node with
        | file _ => cases walked
        | folder =>
          rw [kept _ found]
          exact ih walked

theorem locate_kept (home : e.home = d.home) (kept : ∀ x, d.at? x = some .folder → e.at? x = some .folder)
    {g : Goal} (found : d.locate p = .ok g) : e.locate p = .ok g := by
  unfold locate at found ⊢
  split at found
  · cases found
  · exact found
  · obtain ⟨folder, walked, rest⟩ := Except.bind_eq_ok.mp found
    rw [home]
    exact Except.bind_eq_ok.mpr ⟨folder, walk_kept kept walked, rest⟩

theorem slot_eq_ok : d.slot p = .ok q ↔
    d.locate p = .ok (.entry q) ∧ p.slashed = false ∧ d.at? q ≠ some .folder := by
  constructor
  · intro found
    obtain ⟨g, located, rest⟩ := Except.bind_eq_ok.mp found
    cases g with
    | folder _ => cases rest
    | entry q =>
      simp only at rest
      split at rest
      · cases rest
      · rename_i straight
        split at rest
        · cases rest
        · rename_i free
          cases rest
          exact ⟨located, Bool.eq_false_iff.mpr straight, free⟩
  · rintro ⟨located, straight, free⟩
    refine Except.bind_eq_ok.mpr ⟨_, located, ?_⟩
    simp only [straight, Bool.false_eq_true, if_false, if_neg free]

theorem locate_set_file (free : d.at? q ≠ some .folder) {g : Goal} :
    (d.set q (.file b)).locate p = .ok g ↔ d.locate p = .ok g := by
  have folders (x : Place) : (d.set q (.file b)).at? x = some .folder ↔ d.at? x = some .folder :=
    at?_set_file_folder free
  have home : (d.set q (.file b)).home = d.home := rfl
  constructor
  · exact locate_kept home.symm fun x => (folders x).mp
  · exact locate_kept home fun x => (folders x).mpr

theorem walk_filter {names : List String} (walked : d.walk q names = .ok x) :
    d.walk q (names.filter (· ≠ ".")) = .ok x := by
  induction names generalizing q with
  | nil => exact walked
  | cons name rest ih =>
    rw [walk] at walked
    split at walked
    · cases walked
    · rename_i fits
      split at walked
      · cases walked
      · cases walked
      · rename_i folder
        have later := ih walked
        by_cases dot : name = "."
        · simpa [dot, Place.step] using later
        · rw [List.filter_cons_of_pos (by simpa using dot), walk, if_neg fits, folder]
          exact later

/-- What a path is about, if it has a name of its own, lies in the folder for a temporary file beside it. -/
theorem entry_of_beside {folder : Place} (beside : d.beside p = .ok folder) (located : d.locate p = .ok (.entry q)) :
    ∃ last, p.names.getLast? = some last ∧ q = folder.child last := by
  unfold locate at located
  split at located
  · cases located
  · split at located <;> cases located
  · rename_i last flawless named
    obtain ⟨w, walked, found⟩ := Except.bind_eq_ok.mp located
    split_ifs at found with dots long
    · cases found
    · have leads : w.child last = q := Goal.entry.inj (Except.ok.inj found)
      refine ⟨last, named, ?_⟩
      obtain ⟨front, names⟩ := List.getLast?_eq_some_iff.mp named
      rw [names, List.dropLast_concat] at walked
      have kept : p.names.filter (· ≠ ".") = front.filter (· ≠ ".") ++ [last] := by
        have plain : ¬last = "." := fun dot => dots (.inl dot)
        simp [names, plain]
      rw [Disk.beside, flawless] at beside
      simp only [kept, List.append_eq_nil_iff, List.cons_ne_nil, and_false, if_false, List.dropLast_concat,
        walk_filter walked] at beside
      exact leads.symm.trans (congrArg (·.child last) (Except.ok.inj beside))

theorem read_file (located : d.locate p = .ok (.entry q)) (straight : p.slashed = false)
    (found : d.at? q = some (.file b)) : d.read p = .ok b := by
  have looked : d.look p = .ok (.file b) := by
    refine Except.bind_eq_ok.mpr ⟨_, located, ?_⟩
    simp only [found, straight, Bool.false_eq_true, if_false]
  exact Except.bind_eq_ok.mpr ⟨_, looked, rfl⟩

def content? (d : Disk) (p : Path) : Option Bytes := (d.read p).toOption

theorem read_of_content? (found : d.content? p = some b) : d.read p = .ok b := by
  unfold content? at found
  cases read : d.read p with
  | error t =>
    rw [read] at found
    cases found
  | ok c =>
    rw [read] at found
    cases found
    rfl

theorem content?_eq_some : d.content? p = some b ↔
    ∃ q, d.locate p = .ok (.entry q) ∧ p.slashed = false ∧ d.at? q = some (.file b) := by
  constructor
  · intro found
    obtain ⟨node, looked, file⟩ := Except.bind_eq_ok.mp (read_of_content? found)
    obtain ⟨g, located, stands⟩ := Except.bind_eq_ok.mp looked
    cases g with
    | folder _ =>
      cases stands
      cases file
    | entry q =>
      simp only at stands
      split at stands
      · cases stands
      · rename_i c held
        split_ifs at stands with slash
        cases stands
        cases file
        exact ⟨q, located, by simpa using slash, held⟩
      · cases stands
        cases file
  · rintro ⟨q, located, straight, held⟩
    rw [content?, read_file located straight held]
    rfl

theorem content?_set_other (free : d.at? q ≠ some .folder)
    (apart : ∀ x, d.locate p = .ok (.entry x) → q.text ≠ x.text) :
    (d.set q (.file b)).content? p = d.content? p := by
  have same {x : Place} (located : d.locate p = .ok (.entry x)) : (d.set q (.file b)).at? x = d.at? x :=
    at?_set_other (apart x located)
  refine Option.ext fun c => ?_
  rw [content?_eq_some, content?_eq_some]
  constructor
  · rintro ⟨x, located, straight, held⟩
    have located := (locate_set_file free).mp located
    exact ⟨x, located, straight, same located ▸ held⟩
  · rintro ⟨x, located, straight, held⟩
    exact ⟨x, (locate_set_file free).mpr located, straight, (same located).symm ▸ held⟩

theorem content?_set_self (slot : d.slot p = .ok q) : (d.set q (.file b)).content? p = some b := by
  obtain ⟨located, straight, free⟩ := slot_eq_ok.mp slot
  refine content?_eq_some.mpr ⟨q, (locate_set_file free).mpr located, straight, ?_⟩
  rw [at?_set (ne_root_of_free free), if_pos rfl]

theorem slot_set_file (free : d.at? x = none) : (d.set x (.file b)).slot p = .ok q ↔ d.slot p = .ok q := by
  have vacant : d.at? x ≠ some .folder := by simp [free]
  rw [slot_eq_ok, slot_eq_ok, locate_set_file vacant, Ne, at?_set_file_folder vacant]

end Disk

end Custody
