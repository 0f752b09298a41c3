/-
  Machines: partial step functions and their runs.

  A machine has initial states and a step function `σ → α → Option σ`; `none` means the
  action cannot be taken there. Every choice the environment makes (a caller, a clock
  reading, which of several processes moves) is part of the action, so a run is a list of
  actions and `exec` computes it.

  The rules the other modules use:
  * `exec_invariant`: what every step keeps, every run keeps.
  * `exec_relates`: a reflexive and transitive relation that every step satisfies relates
    the two ends of a run.
  * `exec_invariant_along`: the invariant rule for runs whose steps all meet a side condition,
    and `visited_iff_along`, where the side condition is also necessary; `along_congr` trades
    one side condition for another.
  * `exec_simulates`, `exec_flatMap`, `exec_outputs`: a machine whose steps are runs of
    another one.
  * `sometime_of_origin`: where what is there at the end of a run came from.
  * `visited_of_crossing`: what a run must pass through to enter a set of states.
  * `destutter_visited`: when every step leaves an observation alone or moves it one edge
    further on its unique path, the values seen along a run, repetitions removed, are the
    path to the last one.
-/
import Mathlib.Data.List.Destutter

namespace PovDeposit.Lib

/-- A transition system whose steps are labelled by actions and computed. -/
structure Machine (σ α : Type*) where
  init : σ → Prop
  step : σ → α → Option σ

namespace Machine

variable {σ α : Type*} (M : Machine σ α)

/-- The state after a list of actions, `none` once an action cannot be taken. -/
def exec : σ → List α → Option σ
  | s, [] => some s
  | s, a :: as => (M.step s a).bind fun s' => exec s' as

/-- The states a run passes through, the first one included. -/
def visited : σ → List α → List σ
  | s, [] => [s]
  | s, a :: as => s :: ((M.step s a).map fun s' => visited s' as).getD []

/-- Every step of the run from `s` meets the condition `P` on the state before it. -/
def Along (P : σ → α → Prop) : σ → List α → Prop
  | _, [] => True
  | s, a :: as => P s a ∧ ∀ s', M.step s a = some s' → Along P s' as

/-- Some step of the run from `s` meets the condition `P` on the state before it. -/
def Sometime (P : σ → α → Prop) : σ → List α → Prop
  | _, [] => False
  | s, a :: as => P s a ∨ ∃ s', M.step s a = some s' ∧ Sometime P s' as

/-- What the steps of the run from `s` put out, one after the other. -/
def outputs {β : Type*} (f : σ → α → List β) : σ → List α → List β
  | _, [] => []
  | s, a :: as => f s a ++ ((M.step s a).map fun s' => outputs f s' as).getD []

instance decidableAlong (P : σ → α → Prop) [∀ s a, Decidable (P s a)] :
    (s : σ) → (as : List α) → Decidable (M.Along P s as)
  | _, [] => inferInstanceAs (Decidable True)
  | s, a :: as =>
    have : Decidable (∀ s', M.step s a = some s' → M.Along P s' as) :=
      match M.step s a with
      | none => isTrue fun _ h => nomatch h
      | some t =>
        have : Decidable (M.Along P t as) := decidableAlong P t as
        decidable_of_iff (M.Along P t as)
          ⟨fun h _ ht => Option.some.inj ht ▸ h, fun h => h t rfl⟩
    inferInstanceAs (Decidable (_ ∧ _))

@[simp] theorem exec_nil (s : σ) : M.exec s [] = some s := rfl

theorem exec_cons_eq_some {s s' : σ} {a : α} {as : List α} :
    M.exec s (a :: as) = some s' ↔ ∃ t, M.step s a = some t ∧ M.exec t as = some s' := by
  simp [exec, Option.bind_eq_some_iff]

theorem exec_append (s : σ) (as bs : List α) :
    M.exec s (as ++ bs) = (M.exec s as).bind fun t => M.exec t bs := by
  induction as generalizing s with
  | nil => rfl
  | cons a as ih =>
    simp only [List.cons_append, exec, Option.bind_assoc]
    exact congrArg _ (funext fun t => ih t)

/-- Two runs one after the other are a run. -/
theorem exec_trans {s t u : σ} {as bs : List α} (h₁ : M.exec s as = some t)
    (h₂ : M.exec t bs = some u) : M.exec s (as ++ bs) = some u := by
  rw [exec_append, h₁]
  exact h₂

theorem exec_single {s t : σ} {a : α} (h : M.step s a = some t) : M.exec s [a] = some t := by
  simp [exec, h]

/-! ## Invariants -/

/-- What every step keeps, every run keeps. -/
theorem exec_invariant {I : σ → Prop} (hstep : ∀ s a s', I s → M.step s a = some s' → I s')
    {s s' : σ} {as : List α} (h : M.exec s as = some s') (hs : I s) : I s' := by
  induction as generalizing s with
  | nil => simp only [exec_nil, Option.some.injEq] at h; exact h ▸ hs
  | cons a as ih =>
    obtain ⟨t, ht, hr⟩ := M.exec_cons_eq_some.mp h
    exact ih hr (hstep _ _ _ hs ht)

/-- What every step whose state and action meet `P` keeps, every run along `P` keeps. -/
theorem exec_invariant_along {I : σ → Prop} {P : σ → α → Prop}
    (hstep : ∀ s a s', I s → P s a → M.step s a = some s' → I s')
    {s s' : σ} {as : List α} (h : M.exec s as = some s') (hP : M.Along P s as) (hs : I s) :
    I s' := by
  induction as generalizing s with
  | nil => simp only [exec_nil, Option.some.injEq] at h; exact h ▸ hs
  | cons a as ih =>
    obtain ⟨t, ht, hr⟩ := M.exec_cons_eq_some.mp h
    exact ih hr (hP.2 t ht) (hstep _ _ _ hs hP.1 ht)

/-- A condition on the actions alone can be asked of the list of actions. -/
theorem along_of_forall {Q : α → Prop} (s : σ) {as : List α} (hQ : ∀ a ∈ as, Q a) :
    M.Along (fun _ a => Q a) s as := by
  induction as generalizing s with
  | nil => trivial
  | cons a as ih =>
    exact ⟨hQ a List.mem_cons_self, fun t _ => ih t fun b hb => hQ b (List.mem_cons_of_mem a hb)⟩

theorem forall_of_along {Q : α → Prop} {s s' : σ} {as : List α} (h : M.exec s as = some s')
    (hQ : M.Along (fun _ a => Q a) s as) : ∀ a ∈ as, Q a := by
  induction as generalizing s with
  | nil => simp
  | cons a as ih =>
    obtain ⟨t, ht, hr⟩ := M.exec_cons_eq_some.mp h
    exact List.forall_mem_cons.mpr ⟨hQ.1, ih hr (hQ.2 t ht)⟩

theorem visited_cons {s t : σ} {a : α} {as : List α} (ht : M.step s a = some t) :
    M.visited s (a :: as) = s :: M.visited t as := by
  simp [visited, ht]

/-- What every step keeps, every state a run passes through has. -/
theorem visited_invariant {I : σ → Prop}
    (hstep : ∀ s a s', I s → M.step s a = some s' → I s') {s : σ} {as : List α} (hs : I s) :
    ∀ t ∈ M.visited s as, I t := by
  induction as generalizing s with
  | nil => simpa [visited] using hs
  | cons a as ih =>
    cases ht : M.step s a with
    | none => simpa [visited, ht] using hs
    | some t =>
      rw [M.visited_cons ht, List.forall_mem_cons]
      exact ⟨hs, ih (hstep _ _ _ hs ht)⟩

/-- What holds in every state of a run is met by every step of it. -/
theorem along_of_visited {J : σ → Prop} {s : σ} {as : List α} (hJ : ∀ t ∈ M.visited s as, J t) :
    M.Along (fun t _ => J t) s as := by
  induction as generalizing s with
  | nil => trivial
  | cons a as ih =>
    refine ⟨hJ s (by simp [visited]), fun t ht => ih ?_⟩
    rw [M.visited_cons ht] at hJ
    exact fun u hu => hJ u (List.mem_cons_of_mem s hu)

theorem along_mono {P Q : σ → α → Prop} (hPQ : ∀ s a, P s a → Q s a) {s : σ} {as : List α}
    (hP : M.Along P s as) : M.Along Q s as := by
  induction as generalizing s with
  | nil => trivial
  | cons a as ih => exact ⟨hPQ s a hP.1, fun t ht => ih (hP.2 t ht)⟩

theorem along_and {P Q : σ → α → Prop} {s : σ} {as : List α} (hP : M.Along P s as)
    (hQ : M.Along Q s as) : M.Along (fun s a => P s a ∧ Q s a) s as := by
  induction as generalizing s with
  | nil => trivial
  | cons a as ih => exact ⟨⟨hP.1, hQ.1⟩, fun t ht => ih (hP.2 t ht) (hQ.2 t ht)⟩

theorem along_trans {P : σ → α → Prop} {s t : σ} {as bs : List α} (hrun : M.exec s as = some t)
    (hP : M.Along P s as) (hQ : M.Along P t bs) : M.Along P s (as ++ bs) := by
  induction as generalizing s with
  | nil => simp only [exec_nil, Option.some.injEq] at hrun; exact hrun ▸ hQ
  | cons a as ih =>
    refine ⟨hP.1, fun u hu => ?_⟩
    obtain ⟨v, hv, hrest⟩ := M.exec_cons_eq_some.mp hrun
    obtain rfl : v = u := Option.some.inj (hv.symm.trans hu)
    exact ih hrest (hP.2 v hv)

/-! ## What can be reached by some of the steps -/

/-- A run whose steps all meet `P` leads from `s` to `t`. -/
def CanReach (P : σ → α → Prop) (s t : σ) : Prop := ∃ as, M.exec s as = some t ∧ M.Along P s as

theorem canReach_refl (P : σ → α → Prop) (s : σ) : M.CanReach P s s := ⟨[], rfl, trivial⟩

theorem canReach_step {P : σ → α → Prop} {s t : σ} {a : α} (h : M.step s a = some t) (hP : P s a) :
    M.CanReach P s t :=
  ⟨[a], M.exec_single h, hP, fun _ _ => trivial⟩

variable {M} in
theorem CanReach.trans {P : σ → α → Prop} {s t u : σ} (h : M.CanReach P s t)
    (h' : M.CanReach P t u) : M.CanReach P s u := by
  obtain ⟨as, hrun, halong⟩ := h
  obtain ⟨bs, hrun', halong'⟩ := h'
  exact ⟨as ++ bs, M.exec_trans hrun hrun', M.along_trans hrun halong halong'⟩

variable {M} in
theorem CanReach.exec {P : σ → α → Prop} {s t : σ} (h : M.CanReach P s t) :
    ∃ as, M.exec s as = some t := by
  obtain ⟨as, hrun, -⟩ := h
  exact ⟨as, hrun⟩

/-- Conditions that agree on every step taken under the invariant `I` are met by the same runs. -/
theorem along_congr {I : σ → Prop} {P Q : σ → α → Prop}
    (hI : ∀ s a s', I s → M.step s a = some s' → I s')
    (hPQ : ∀ s a, I s → (P s a ↔ Q s a)) {s : σ} {as : List α} (hs : I s) :
    M.Along P s as ↔ M.Along Q s as := by
  induction as generalizing s with
  | nil => exact Iff.rfl
  | cons a as ih =>
    unfold Along
    rw [hPQ s a hs]
    refine and_congr_right fun _ => forall_congr' fun t => ?_
    exact forall_congr' fun ht => ih (hI s a t hs ht)

/-- When, under the invariant `I`, a step keeps `G` exactly if it meets `P`, then all the
    states of a run have `G` exactly if all its steps meet `P`. -/
theorem visited_iff_along {I G : σ → Prop} {P : σ → α → Prop}
    (hI : ∀ s a s', I s → M.step s a = some s' → I s')
    (hstep : ∀ s a s', I s → G s → M.step s a = some s' → (G s' ↔ P s a))
    {s s' : σ} {as : List α} (h : M.exec s as = some s') (hs : I s) (hG : G s) :
    (∀ t ∈ M.visited s as, G t) ↔ M.Along P s as := by
  induction as generalizing s with
  | nil => simpa [visited, Along] using hG
  | cons a as ih =>
    obtain ⟨t, ht, hr⟩ := M.exec_cons_eq_some.mp h
    have hvis : M.visited s (a :: as) = s :: M.visited t as := by simp [visited, ht]
    have hmem : t ∈ M.visited t as := by cases as <;> simp [visited]
    have hkey := hstep _ _ _ hs hG ht
    rw [hvis, List.forall_mem_cons]
    constructor
    · rintro ⟨-, hall⟩
      refine ⟨hkey.mp (hall t hmem), fun u hu => ?_⟩
      obtain rfl : t = u := by simpa [ht] using hu
      exact (ih hr (hI _ _ _ hs ht) (hall t hmem)).mp hall
    · rintro ⟨hP, hrest⟩
      exact ⟨hG, (ih hr (hI _ _ _ hs ht) (hkey.mpr hP)).mpr (hrest t ht)⟩

/-- A relation that is reflexive, transitive and holds across every step taken under the
    invariant `I` holds between the two ends of every run from a state with `I`. -/
theorem exec_relates {I : σ → Prop} {R : σ → σ → Prop}
    (hI : ∀ s a s', I s → M.step s a = some s' → I s')
    (hrefl : ∀ s, R s s) (htrans : ∀ s t u, R s t → R t u → R s u)
    (hstep : ∀ s a s', I s → M.step s a = some s' → R s s')
    {s s' : σ} {as : List α} (h : M.exec s as = some s') (hs : I s) : R s s' := by
  induction as generalizing s with
  | nil => simp only [exec_nil, Option.some.injEq] at h; exact h ▸ hrefl s
  | cons a as ih =>
    obtain ⟨t, ht, hr⟩ := M.exec_cons_eq_some.mp h
    exact htrans _ _ _ (hstep _ _ _ hs ht) (ih hr (hI _ _ _ hs ht))

/-- A run of a machine whose steps are runs of another one is a run of the other one. -/
theorem exec_simulates {τ β : Type*} {N : Machine τ β} {f : σ → τ}
    (hstep : ∀ s a s', M.step s a = some s' → ∃ bs, N.exec (f s) bs = some (f s'))
    {s s' : σ} {as : List α} (h : M.exec s as = some s') :
    ∃ bs, N.exec (f s) bs = some (f s') := by
  induction as generalizing s with
  | nil => simp only [exec_nil, Option.some.injEq] at h; exact ⟨[], by rw [h]; rfl⟩
  | cons a as ih =>
    obtain ⟨t, ht, hr⟩ := M.exec_cons_eq_some.mp h
    obtain ⟨bs, hb⟩ := hstep _ _ _ ht
    obtain ⟨cs, hc⟩ := ih hr
    exact ⟨bs ++ cs, N.exec_trans hb hc⟩

/-- A run of a machine whose steps are runs of another one, with the actions of that run. -/
theorem exec_flatMap {τ β : Type*} {N : Machine τ β} {f : σ → τ} {g : α → List β}
    (hstep : ∀ s a s', M.step s a = some s' → N.exec (f s) (g a) = some (f s'))
    {s s' : σ} {as : List α} (h : M.exec s as = some s') :
    N.exec (f s) (as.flatMap g) = some (f s') := by
  induction as generalizing s with
  | nil => simp only [exec_nil, Option.some.injEq] at h; rw [h]; rfl
  | cons a as ih =>
    obtain ⟨t, ht, hr⟩ := M.exec_cons_eq_some.mp h
    exact N.exec_trans (hstep _ _ _ ht) (ih hr)

/-- A run of a machine whose steps put out runs of another one, along a relation between the
    states of the two. -/
theorem exec_outputs {τ β : Type*} {N : Machine τ β} {f : σ → α → List β} {R : σ → τ → Prop}
    (hstep : ∀ s a s' t, R s t → M.step s a = some s' →
      ∃ t', N.exec t (f s a) = some t' ∧ R s' t')
    {s s' : σ} {as : List α} {t : τ} (h : M.exec s as = some s') (hR : R s t) :
    ∃ t', N.exec t (M.outputs f s as) = some t' ∧ R s' t' := by
  induction as generalizing s t with
  | nil =>
    simp only [exec_nil, Option.some.injEq] at h
    exact ⟨t, rfl, h ▸ hR⟩
  | cons a as ih =>
    obtain ⟨u, hu, hr⟩ := M.exec_cons_eq_some.mp h
    obtain ⟨v, hv, hRv⟩ := hstep _ _ _ _ hR hu
    obtain ⟨w, hw, hRw⟩ := ih hr hRv
    refine ⟨w, ?_, hRw⟩
    have hout : M.outputs f s (a :: as) = f s a ++ M.outputs f u as := by simp [outputs, hu]
    rw [hout]
    exact N.exec_trans hv hw

/-- What is there at the end and was not at the start came with a step that can bring it. -/
theorem sometime_of_origin {I G : σ → Prop} {P : σ → α → Prop}
    (hI : ∀ s a s', I s → M.step s a = some s' → I s')
    (horigin : ∀ s a s', I s → ¬ G s → M.step s a = some s' → G s' → P s a)
    {s s' : σ} {as : List α} (h : M.exec s as = some s') (hs : I s) (hout : ¬ G s) (hin : G s') :
    M.Sometime P s as := by
  induction as generalizing s with
  | nil =>
    simp only [exec_nil, Option.some.injEq] at h
    exact absurd (h ▸ hin) hout
  | cons a as ih =>
    obtain ⟨t, ht, hr⟩ := M.exec_cons_eq_some.mp h
    by_cases hGt : G t
    · exact .inl (horigin _ _ _ hs hout ht hGt)
    · exact .inr ⟨t, ht, ih hr (hI _ _ _ hs ht) hGt⟩

/-- A run that enters `G` passes through a state with what every step into `G` leads to. -/
theorem visited_of_crossing {I G Q : σ → Prop}
    (hI : ∀ s a s', I s → M.step s a = some s' → I s')
    (hcross : ∀ s a s', I s → ¬ G s → M.step s a = some s' → G s' → Q s')
    {s s' : σ} {as : List α} (h : M.exec s as = some s') (hs : I s) (hout : ¬ G s) (hin : G s') :
    ∃ t ∈ M.visited s as, Q t := by
  induction as generalizing s with
  | nil => simp only [exec_nil, Option.some.injEq] at h; exact absurd (h ▸ hin) hout
  | cons a as ih =>
    obtain ⟨t, ht, hr⟩ := M.exec_cons_eq_some.mp h
    have hvis : M.visited s (a :: as) = s :: M.visited t as := by simp [visited, ht]
    rw [hvis]
    by_cases hGt : G t
    · have hmem : t ∈ M.visited t as := by cases as <;> simp [visited]
      exact ⟨t, List.mem_cons_of_mem s hmem, hcross _ _ _ hs hout ht hGt⟩
    · obtain ⟨u, hu, hQ⟩ := ih hr (hI _ _ _ hs ht) hGt
      exact ⟨u, List.mem_cons_of_mem s hu, hQ⟩

/-! ## The values an observation takes along a run -/

/-- `f` observes something that is absent first and whose values move along edges. `path x`
    is the list of values passed on the way to `x`, `x` included; every step of a run keeps
    the value, or moves it to a `y` with `path y = path x ++ [y]`, or makes it appear at the
    start of a path. Then the values seen, repetitions removed, are the path to the last. -/
theorem destutter_visited {β : Type*} [DecidableEq β] {I : σ → Prop} (f : σ → Option β)
    (path : β → List β) (hI : ∀ s a s', I s → M.step s a = some s' → I s')
    (hmove : ∀ s a s' x, I s → M.step s a = some s' → f s = some x →
      ∃ y, f s' = some y ∧ (y = x ∨ path y = path x ++ [y]))
    (hnew : ∀ s a s' y, I s → M.step s a = some s' → f s = none → f s' = some y → path y = [y])
    (hpath : ∀ x, ∃ l, path x = l ++ [x])
    {s s' : σ} {as : List α} (h : M.exec s as = some s') (hs : I s) :
    (f s = none → ((M.visited s as).filterMap f).destutter (· ≠ ·) =
        ((f s').map path).getD []) ∧
    (∀ x, f s = some x → ∃ y, f s' = some y ∧
      (path x).dropLast ++ ((M.visited s as).filterMap f).destutter (· ≠ ·) = path y) := by
  induction as generalizing s with
  | nil =>
    simp only [exec_nil, Option.some.injEq] at h
    subst h
    refine ⟨fun hn => by simp [visited, hn], fun x hx => ⟨x, hx, ?_⟩⟩
    obtain ⟨l, hl⟩ := hpath x
    simp [visited, hx, hl]
  | cons a as ih =>
    obtain ⟨t, ht, hr⟩ := M.exec_cons_eq_some.mp h
    obtain ⟨ihn, ihs⟩ := ih hr (hI _ _ _ hs ht)
    -- what is seen from `t` on starts with the value at `t`
    have hvis : M.visited s (a :: as) = s :: M.visited t as := by simp [visited, ht]
    have hhead : ∀ y, f t = some y → ∃ l, (M.visited t as).filterMap f = y :: l := by
      intro y hy
      cases as <;> simp [visited, hy]
    refine ⟨fun hn => ?_, fun x hx => ?_⟩
    · rw [hvis, List.filterMap_cons_none hn]
      cases hft : f t with
      | none => exact ihn hft
      | some y =>
        obtain ⟨z, hz, he⟩ := ihs y hft
        rw [hnew _ _ _ _ hs ht hn hft] at he
        simpa [hz] using he
    · obtain ⟨y, hy, hxy⟩ := hmove _ _ _ _ hs ht hx
      obtain ⟨z, hz, he⟩ := ihs y hy
      obtain ⟨l, hl⟩ := hhead y hy
      refine ⟨z, hz, ?_⟩
      rw [hvis, List.filterMap_cons_some hx]
      rcases hxy with rfl | hpy
      · rw [hl] at he ⊢
        rw [List.destutter_cons_cons, if_neg (by simp)]
        exact he
      · by_cases hxe : x = y
        · -- a path that repeats its end would be longer than itself
          subst hxe
          exact absurd (congrArg List.length hpy) (by simp)
        · rw [hl] at he ⊢
          rw [List.destutter_cons_cons, if_pos hxe]
          rw [hpy, List.dropLast_concat] at he
          obtain ⟨p, hp⟩ := hpath x
          rw [hp, List.append_assoc] at he
          rw [hp, List.dropLast_concat]
          exact he

end Machine

end PovDeposit.Lib
