/-!
Results that may be missing. If a computation succeeds, so did each of its steps; if what two computations find is
related, either both find something or neither does.
-/

namespace Except

universe u v w

variable {ε : Type u} {α : Type v} {β : Type w}

theorem bind_eq_ok {x : Except ε α} {f : α → Except ε β} {b : β} :
    x.bind f = .ok b ↔ ∃ a, x = .ok a ∧ f a = .ok b := by
  cases x with
  | error e => simp [Except.bind]
  | ok a => simp [Except.bind]

theorem map_eq_ok {x : Except ε α} {f : α → β} {b : β} :
    x.map f = .ok b ↔ ∃ a, x = .ok a ∧ f a = b := by
  cases x with
  | error e => simp [Except.map]
  | ok a => simp [Except.map]

theorem map_eq_error {x : Except ε α} {f : α → β} {e : ε} : x.map f = .error e ↔ x = .error e := by
  cases x with
  | error e => simp [Except.map]
  | ok a => simp [Except.map]

theorem exists_of_isOk {x : Except ε α} (succeeds : x.isOk = true) : ∃ a, x = .ok a := by
  cases x with
  | error e => cases succeeds
  | ok a => exact ⟨a, rfl⟩

end Except

namespace Option.Rel

variable {α β γ : Type} {R : α → β → Prop} {a : Option α} {b : Option β}

theorem isSome_eq (related : Option.Rel R a b) : a.isSome = b.isSome := by
  cases related with
  | none => rfl
  | some => rfl

theorem map_eq {f : α → γ} {g : β → γ} (related : Option.Rel R a b) (same : ∀ x y, R x y → f x = g y) :
    a.map f = b.map g := by
  cases related with
  | none => rfl
  | some held => exact congrArg Option.some (same _ _ held)

end Option.Rel
