/-
  Machines that come to rest.

  * `exec_budget`: the potential method for runs. A step that `pays` takes one off a potential
    `μ`, a step that `earns` may raise it by `k`; over a whole run the payments are covered by
    the potential at the start and the earnings.
  * `exists_enabled_of_waits`: when whoever is stuck waits for somebody of a smaller rank, not
    everybody is stuck.
  * `length_le_potential`, `exists_run_to_rest`: where certain steps lower a potential, runs of
    such steps are bounded and every state has one that cannot be continued.
-/
import PovDeposit.Lib.Machine

namespace PovDeposit.Lib

/-- A cycle of processes that wait for each other would have no smallest rank. -/
theorem exists_enabled_of_waits {ι : Type*} {busy enabled : ι → Prop} (rank : ι → Nat)
    (hwait : ∀ i, busy i → enabled i ∨ ∃ j, busy j ∧ rank j < rank i) {i : ι} (hi : busy i) :
    ∃ j, busy j ∧ enabled j := by
  generalize hr : rank i = r
  induction r using Nat.strongRecOn generalizing i with
  | ind r ih =>
    rcases hwait i hi with hen | ⟨j, hj, hlt⟩
    · exact ⟨i, hi, hen⟩
    · exact ih (rank j) (by omega) hj rfl

namespace Machine

variable {σ α : Type*} (M : Machine σ α) {μ : σ → Nat}

/-- What every step pays for itself, a run pays for. -/
theorem exec_budget {pays earns : α → Bool} {k : Nat}
    (hstep : ∀ s a s', M.step s a = some s' →
      (if pays a then 1 else 0) + μ s' ≤ μ s + if earns a then k else 0)
    {s s' : σ} {as : List α} (h : M.exec s as = some s') :
    as.countP pays + μ s' ≤ μ s + k * as.countP earns := by
  induction as generalizing s with
  | nil =>
    simp only [exec_nil, Option.some.injEq] at h
    subst h
    simp
  | cons a as ih =>
    obtain ⟨t, ht, hr⟩ := M.exec_cons_eq_some.mp h
    have hone := hstep _ _ _ ht
    have hrest : as.countP pays + μ s' ≤ μ t + k * as.countP earns := ih hr
    have hearned : k * (if earns a then 1 else 0) = if earns a then k else 0 := by
      split <;> simp
    rw [List.countP_cons, List.countP_cons, Nat.mul_add, hearned]
    omega

/-- No step with an action of `Q` can be taken. -/
def AtRest (Q : α → Prop) (s : σ) : Prop := ∀ a, Q a → M.step s a = none

/-- Where the steps with actions of `Q` lower the potential, runs of such steps are no longer
    than it is at their start. -/
theorem length_le_potential {Q : α → Prop}
    (hdrop : ∀ s a s', Q a → M.step s a = some s' → μ s' < μ s)
    {s s' : σ} {as : List α} (hQ : ∀ a ∈ as, Q a) (h : M.exec s as = some s') :
    as.length + μ s' ≤ μ s := by
  induction as generalizing s with
  | nil =>
    simp only [exec_nil, Option.some.injEq] at h
    subst h
    simp
  | cons a as ih =>
    obtain ⟨t, ht, hr⟩ := M.exec_cons_eq_some.mp h
    obtain ⟨ha, has⟩ := List.forall_mem_cons.mp hQ
    have hlt : μ t < μ s := hdrop _ _ _ ha ht
    have hrest : as.length + μ s' ≤ μ t := ih has hr
    simp only [List.length_cons]
    omega

/-- And every state has a run of such steps that cannot be continued. -/
theorem exists_run_to_rest {Q : α → Prop}
    (hdrop : ∀ s a s', Q a → M.step s a = some s' → μ s' < μ s) (s : σ) :
    ∃ as s', (∀ a ∈ as, Q a) ∧ M.exec s as = some s' ∧ M.AtRest Q s' := by
  generalize hn : μ s = n
  induction n using Nat.strongRecOn generalizing s with
  | ind n ih =>
    by_cases hrest : M.AtRest Q s
    · exact ⟨[], s, by simp, rfl, hrest⟩
    · unfold AtRest at hrest
      push Not at hrest
      obtain ⟨a, hQ, hsome⟩ := hrest
      obtain ⟨t, ht⟩ := Option.ne_none_iff_exists'.mp hsome
      have hlt : μ t < μ s := hdrop _ _ _ hQ ht
      obtain ⟨as, u, hall, hrun, hu⟩ := ih (μ t) (by omega) t rfl
      exact ⟨a :: as, u, List.forall_mem_cons.mpr ⟨hQ, hall⟩,
        M.exec_cons_eq_some.mpr ⟨t, ht, hrun⟩, hu⟩

end Machine

end PovDeposit.Lib
