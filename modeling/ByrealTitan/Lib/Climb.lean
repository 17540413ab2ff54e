import Mathlib.Algebra.Group.Defs

/-!
# `Lib.Climb` — what the way along a relation costs

Each step of the relation has a cost, in any monoid; a climb takes step after step and adds up what they
cost. Where a place allows one step only, two climbs from it share their way until one of them ends, so
those that end where nothing leads on have come to the same place, at the same cost (`Climb.unique`).
-/

/-- The steps from one place to another, with their cost in all. -/
inductive Climb {σ M : Type} [AddMonoid M] (R : σ → M → σ → Prop) : σ → M → σ → Prop where
  | foot (p : σ) : Climb R p 0 p
  | rung {p p' q : σ} {m n : M} : R p m p' → Climb R p' n q → Climb R p (m + n) q

namespace Climb

variable {σ M : Type} [AddMonoid M] {R : σ → M → σ → Prop} {p p' q q' : σ} {m n : M}

/-- One more step at the end. -/
theorem snoc (h : Climb R p m q) (hrung : R q n q') : Climb R p (m + n) q' := by
  induction h with
  | foot p =>
      have hone : Climb R p (n + 0) q' := .rung hrung (.foot q')
      rwa [add_zero, ← zero_add n] at hone
  | rung hfirst _ ih =>
      rw [add_assoc]
      exact .rung hfirst (ih hrung)

/-- A place that nothing leads on from is left by no climb. -/
theorem of_stuck (hstuck : ∀ m p', ¬ R p m p') (h : Climb R p m q) : m = 0 ∧ q = p := by
  cases h with
  | foot           => exact ⟨rfl, rfl⟩
  | rung hfirst _ => exact absurd hfirst (hstuck _ _)

/-- **Climbs that end where nothing leads on end alike**, where each place allows one step only. -/
theorem unique (hone : ∀ p m p' n p'', R p m p' → R p n p'' → n = m ∧ p'' = p') (h : Climb R p m q)
    (hstuck : ∀ m p', ¬ R q m p') (h' : Climb R p n q') (hstuck' : ∀ m p', ¬ R q' m p') :
    n = m ∧ q' = q := by
  induction h generalizing n with
  | foot p => exact h'.of_stuck hstuck
  | rung hfirst _ ih =>
      cases h' with
      | foot => exact absurd hfirst (hstuck' _ _)
      | rung hfirst' hrest' =>
          obtain ⟨rfl, rfl⟩ := hone _ _ _ _ _ hfirst hfirst'
          obtain ⟨rfl, rfl⟩ := ih hstuck hrest'
          exact ⟨rfl, rfl⟩

end Climb
