import Mathlib.Data.List.Forall2

/-!
Runs. A machine takes inputs one after another; what it gives out and the state it ends in are kept.
-/

namespace Custody

variable {σ τ α β : Type}

/-- What a machine gives out for a row of inputs, and the state that it ends in. -/
def runOn (step : σ → α → β × σ) (s : σ) : List α → List β × σ
  | [] => ([], s)
  | a :: rest =>
    let (b, s) := step s a
    let (bs, s) := runOn step s rest
    (b :: bs, s)

theorem runOn_append (step : σ → α → β × σ) (s : σ) (l r : List α) :
    (runOn step s (l ++ r)).2 = (runOn step (runOn step s l).2 r).2 := by
  induction l generalizing s with
  | nil => rfl
  | cons a l ih => exact ih _

theorem runOn_append_given (step : σ → α → β × σ) (s : σ) (l r : List α) :
    (runOn step s (l ++ r)).1 = (runOn step s l).1 ++ (runOn step (runOn step s l).2 r).1 := by
  induction l generalizing s with
  | nil => rfl
  | cons a l ih => exact congrArg (List.cons _) (ih _)

theorem runOn_invariant {step : σ → α → β × σ} {P : σ → Prop} {l : List α}
    (keeps : ∀ s, ∀ a ∈ l, P s → P (step s a).2) {s : σ} (start : P s) : P (runOn step s l).2 := by
  induction l generalizing s with
  | nil => exact start
  | cons a l ih =>
    have first := keeps s a List.mem_cons_self start
    exact ih (fun t b member => keeps t b (List.mem_cons_of_mem a member)) first

theorem runOn_forall {step : σ → α → β × σ} {P : σ → Prop} {Q : β → Prop} {l : List α}
    (keeps : ∀ s, ∀ a ∈ l, P s → Q (step s a).1 ∧ P (step s a).2) {s : σ} (start : P s) :
    ∀ b ∈ (runOn step s l).1, Q b := by
  induction l generalizing s with
  | nil => exact fun b member => absurd member List.not_mem_nil
  | cons a l ih =>
    obtain ⟨first, next⟩ := keeps s a List.mem_cons_self start
    have rest := ih (fun t b member => keeps t b (List.mem_cons_of_mem a member)) next
    exact List.forall_mem_cons.mpr ⟨first, rest⟩

theorem runOn_related {γ : Type} {step : σ → α → β × σ} {next : τ → α → γ × τ} {R : σ → τ → Prop}
    (keeps : ∀ s t a, R s t → R (step s a).2 (next t a).2) {s : σ} {t : τ} (start : R s t) (l : List α) :
    R (runOn step s l).2 (runOn next t l).2 := by
  induction l generalizing s t with
  | nil => exact start
  | cons a l ih => exact ih (keeps s t a start)

/-- Machines that keep step with each other on inputs that are alike give out the same. -/
theorem runOn_alike {α' : Type} {step : σ → α → β × σ} {next : τ → α' → β × τ} {R : σ → τ → Prop}
    {Q : α → α' → Prop}
    (keeps : ∀ s t a b, R s t → Q a b → (step s a).1 = (next t b).1 ∧ R (step s a).2 (next t b).2)
    {s : σ} {t : τ} (start : R s t) {l : List α} {r : List α'} (alike : List.Forall₂ Q l r) :
    (runOn step s l).1 = (runOn next t r).1 ∧ R (runOn step s l).2 (runOn next t r).2 := by
  induction alike generalizing s t with
  | nil => exact ⟨rfl, start⟩
  | @cons a b l r first _ ih =>
    obtain ⟨same, related⟩ := keeps s t a b start first
    obtain ⟨rest, last⟩ := ih related
    exact ⟨congr (congrArg List.cons same) rest, last⟩

theorem runOn_simulation {step : σ → α → β × σ} {next : τ → α → β × τ} {R : σ → τ → Prop}
    (keeps : ∀ s t a, R s t → (step s a).1 = (next t a).1 ∧ R (step s a).2 (next t a).2)
    {s : σ} {t : τ} (start : R s t) (l : List α) :
    (runOn step s l).1 = (runOn next t l).1 ∧ R (runOn step s l).2 (runOn next t l).2 := by
  refine runOn_alike (Q := Eq) (fun s t a b related same => ?_) start (List.forall₂_refl l)
  exact same ▸ keeps s t a related

end Custody
