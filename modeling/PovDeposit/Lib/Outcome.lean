/-
  Inversion of `Except` computations.

  A guarded computation is a chain of binds and of `if c then .error e else ..`. The lemmas
  take a chain that returned a value apart into its guards and its steps, one equivalence
  for each shape, so that `simp only` inverts a whole entry point at once.
-/
import Mathlib.Logic.Basic

namespace PovDeposit.Lib.Outcome

universe u

variable {ε : Type*} {α β : Type u}

theorem bind_eq_ok {x : Except ε α} {f : α → Except ε β} {b : β} :
    (x >>= f) = .ok b ↔ ∃ a, x = .ok a ∧ f a = .ok b := by
  cases x with
  | error e => simp [bind, Except.bind]
  | ok a => simp [bind, Except.bind]

theorem map_eq_ok {x : Except ε α} {f : α → β} {b : β} :
    x.map f = .ok b ↔ ∃ a, x = .ok a ∧ f a = b := by
  cases x with
  | error e => simp [Except.map]
  | ok a => simp [Except.map]

theorem map_eq_error {x : Except ε α} {f : α → β} {e : ε} :
    x.map f = .error e ↔ x = .error e := by
  cases x with
  | error e => simp [Except.map]
  | ok a => simp [Except.map]

theorem pure_eq_ok {a b : α} : (pure a : Except ε α) = .ok b ↔ a = b := by
  simp [pure, Except.pure]

theorem bind_eq_error {x : Except ε α} {f : α → Except ε β} {e : ε} :
    (x >>= f) = .error e ↔ x = .error e ∨ ∃ a, x = .ok a ∧ f a = .error e := by
  cases x with
  | error e => simp [bind, Except.bind]
  | ok a => simp [bind, Except.bind]

variable {c : Prop} [Decidable c]

/-- A guard that returned a value did not fail. -/
theorem guard_eq_ok {e : ε} {x : Except ε α} {b : α} :
    (if c then .error e else x) = .ok b ↔ ¬ c ∧ x = .ok b := by
  by_cases h : c <;> simp [h]

theorem guard_eq_error {e e' : ε} {x : Except ε α} :
    (if c then .error e else x) = .error e' ↔ c ∧ e = e' ∨ ¬ c ∧ x = .error e' := by
  by_cases h : c <;> simp [h]

/-- The test that lets a computation continue, as `require_auth` is. -/
theorem check_eq_ok {e : ε} {x : Except ε α} {b : α} :
    (if c then x else .error e) = .ok b ↔ c ∧ x = .ok b := by
  by_cases h : c <;> simp [h]

end PovDeposit.Lib.Outcome
