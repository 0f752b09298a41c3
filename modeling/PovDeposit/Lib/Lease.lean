/-
  Leases along a run.

  A machine has a clock `now` that never goes back, and a lease that may be absent and
  otherwise has an expiry. Some steps renew it. `renewals` lists the clock readings at which
  a run renews the lease; `EveryWindow` says that every `T` consecutive ticks of a run
  contain one of them.

  `lease_never_expires`: if a renewal makes the lease last for `T` more ticks, and every
  other step leaves it alone, then a lease that is absent at the start of such a run has not
  expired in any state of it. The first window may pass without a lease, so the lease has to
  appear in it; after that each renewal covers the window up to the next one.
-/
import PovDeposit.Lib.Machine

namespace PovDeposit.Lib

namespace Machine

variable {σ α : Type*} (M : Machine σ α) (now : σ → Nat) (renews : σ → α → Prop)
  [∀ s a, Decidable (renews s a)]

/-- The clock readings at which the run from `s` renews the lease. -/
def renewals : σ → List α → List Nat := M.outputs fun s a => if renews s a then [now s] else []

/-- Every `T` consecutive ticks between `first` and `last` contain one of `ticks`. -/
def EveryWindow (T first last : Nat) (ticks : List Nat) : Prop :=
  ∀ m, first ≤ m → m + T ≤ last + 1 → ∃ q ∈ ticks, m ≤ q ∧ q < m + T

/-- After a renewal at `q`, the next `T` ticks contain one, as long as the run lasts. -/
def Covered (T q last : Nat) (ticks : List Nat) : Prop :=
  ∀ m, q ≤ m → m + T ≤ last → ∃ x ∈ ticks, m < x ∧ x ≤ m + T

theorem covered_of_everyWindow {T first last : Nat} {ticks : List Nat}
    (h : EveryWindow T first last ticks) : Covered T first last ticks := by
  intro m hm hlast
  obtain ⟨q, hq, hle, hlt⟩ := h (m + 1) (by omega) (by omega)
  exact ⟨q, hq, by omega, by omega⟩

/-- From a renewal at `q` on, only the later renewals matter. -/
theorem Covered.tail {T q last : Nat} {ticks : List Nat} (h : Covered T q last (q :: ticks)) :
    Covered T q last ticks := by
  intro m hm hlast
  obtain ⟨x, hx, hlt, hle⟩ := h m hm hlast
  rcases List.mem_cons.mp hx with rfl | hx
  · omega
  · exact ⟨x, hx, hlt, hle⟩

theorem Covered.mono {T q q' last : Nat} {ticks : List Nat} (h : Covered T q last ticks)
    (hq : q ≤ q') : Covered T q' last ticks :=
  fun m hm hlast => h m (hq.trans hm) hlast

variable {M now renews}

theorem renewals_cons {s t : σ} {a : α} {as : List α} (ht : M.step s a = some t) :
    M.renewals now renews s (a :: as) =
      (if renews s a then [now s] else []) ++ M.renewals now renews t as := by
  simp [renewals, outputs, ht]

section

variable {I : σ → Prop} (hI : ∀ s a s', I s → M.step s a = some s' → I s')
  (hclock : ∀ s a s', I s → M.step s a = some s' → now s ≤ now s')
include hI hclock

theorem now_le_of_exec {s s' : σ} {as : List α} (h : M.exec s as = some s') (hs : I s) :
    now s ≤ now s' :=
  M.exec_relates (R := fun s t => now s ≤ now t) hI (fun _ => Nat.le_refl _)
    (fun _ _ _ => Nat.le_trans) hclock h hs

theorem now_le_of_renewal {s s' : σ} {as : List α} (h : M.exec s as = some s') (hs : I s)
    {x : Nat} (hx : x ∈ M.renewals now renews s as) : now s ≤ x := by
  induction as generalizing s with
  | nil => cases hx
  | cons a as ih =>
    obtain ⟨t, ht, hr⟩ := M.exec_cons_eq_some.mp h
    rw [renewals_cons ht] at hx
    rcases List.mem_append.mp hx with hx | hx
    · split at hx
      · exact (List.mem_singleton.mp hx).ge
      · cases hx
    · have htx : now t ≤ x := ih hr (hI _ _ _ hs ht) hx
      have hst : now s ≤ now t := hclock _ _ _ hs ht
      omega

/-- As long as the renewals cover the run, its clock has not passed the last one by more
    than a window. -/
theorem now_le_of_covered {T q : Nat} {s s' : σ} {as : List α} (h : M.exec s as = some s')
    (hs : I s) (hcov : Covered T q (now s') (M.renewals now renews s as)) : now s ≤ q + T := by
  by_contra hlate
  have hend : now s ≤ now s' := now_le_of_exec hI hclock h hs
  obtain ⟨x, hx, -, hle⟩ := hcov q (Nat.le_refl _) (by omega)
  have hnow : now s ≤ x := now_le_of_renewal hI hclock h hs hx
  omega

variable {T : Nat} (expiry : σ → Option Nat)
  (hrenew : ∀ s a s', I s → M.step s a = some s' → renews s a →
    ∃ e, expiry s' = some e ∧ now s + T ≤ e)
  (hkeep : ∀ s a s', I s → M.step s a = some s' → ¬ renews s a → expiry s' = expiry s)
include hrenew hkeep

/-- A lease that covers the window after `q` has not expired in any state of a run whose
    renewals cover it from `q` on. -/
theorem lease_covered {s s' : σ} {as : List α} (h : M.exec s as = some s') (hs : I s) {q : Nat}
    (hq : q ≤ now s) (hlease : ∀ e, expiry s = some e → q + T ≤ e)
    (hcov : Covered T q (now s') (M.renewals now renews s as)) :
    ∀ t ∈ M.visited s as, ∀ e, expiry t = some e → now t ≤ e := by
  induction as generalizing s q with
  | nil =>
    intro t ht e he
    obtain rfl : t = s := by simpa [visited] using ht
    have hnow := now_le_of_covered hI hclock h hs hcov
    have := hlease e he
    omega
  | cons a as ih =>
    have hnow := now_le_of_covered hI hclock h hs hcov
    obtain ⟨t, ht, hr⟩ := M.exec_cons_eq_some.mp h
    have hst : now s ≤ now t := hclock _ _ _ hs ht
    have hvis : M.visited s (a :: as) = s :: M.visited t as := by simp [visited, ht]
    rw [hvis, List.forall_mem_cons]
    refine ⟨fun e he => ?_, ?_⟩
    · have := hlease e he
      omega
    · rw [renewals_cons ht] at hcov
      by_cases hren : renews s a
      · -- the window now counts from this renewal
        rw [if_pos hren, List.singleton_append] at hcov
        obtain ⟨e, he, hle⟩ := hrenew _ _ _ hs ht hren
        refine ih hr (hI _ _ _ hs ht) hst (fun x hx => ?_) (hcov.mono hq).tail
        obtain rfl : e = x := Option.some.inj (he.symm.trans hx)
        exact hle
      · rw [if_neg hren, List.nil_append] at hcov
        refine ih hr (hI _ _ _ hs ht) (hq.trans hst) (fun x hx => hlease x ?_) hcov
        rw [← hkeep _ _ _ hs ht hren]
        exact hx

/-- **A lease renewed in every window never expires.** -/
theorem lease_never_expires {s s' : σ} {as : List α} (h : M.exec s as = some s') (hs : I s)
    (habsent : expiry s = none)
    (hwindow : EveryWindow T (now s) (now s') (M.renewals now renews s as)) :
    ∀ t ∈ M.visited s as, ∀ e, expiry t = some e → now t ≤ e := by
  have hlease : ∀ e, expiry s = some e → now s + T ≤ e := by
    intro e he
    rw [habsent] at he
    cases he
  exact lease_covered hI hclock expiry hrenew hkeep h hs (Nat.le_refl _) hlease
    (covered_of_everyWindow hwindow)

end

end Machine

end PovDeposit.Lib
