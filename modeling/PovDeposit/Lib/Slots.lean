/-
  Processes in a list.

  A process keeps the position at which it was added, so a step of process `i` is a `set` at
  `i` and a new process is added at the end. The lemmas say what is found at a position
  after either. `AtMostOne P` is mutual exclusion: `P` holds at one position at most.
-/
import Mathlib.Data.List.Perm.Basic
import Mathlib.Algebra.GroupWithZero.Nat

namespace PovDeposit.Lib

variable {α β : Type*} {l : List α} {i j : Nat} {x y : α}

theorem getElem?_of_set (hi : i < l.length) (hy : (l.set i x)[j]? = some y) :
    j = i ∧ y = x ∨ j ≠ i ∧ l[j]? = some y := by
  rw [List.getElem?_set] at hy
  by_cases hij : i = j
  · rw [if_pos hij, if_pos hi, Option.some.injEq] at hy
    exact .inl ⟨hij.symm, hy.symm⟩
  · rw [if_neg hij] at hy
    exact .inr ⟨Ne.symm hij, hy⟩

theorem getElem?_of_concat (hy : (l ++ [x])[j]? = some y) :
    l[j]? = some y ∨ j = l.length ∧ y = x := by
  rw [List.getElem?_append] at hy
  split at hy
  · exact .inl hy
  · rename_i hj
    rw [List.getElem?_singleton] at hy
    split at hy
    · exact .inr ⟨by omega, (Option.some.inj hy).symm⟩
    · cases hy

theorem getElem?_concat_keep (hy : l[j]? = some y) : (l ++ [x])[j]? = some y := by
  obtain ⟨hj, -⟩ := List.getElem?_eq_some_iff.mp hy
  rw [List.getElem?_append_left hj]
  exact hy

/-- A step of process `i` adds what `f` now selects there, if it selected nothing before. -/
theorem filterMap_set_perm (f : α → Option β) (hi : l[i]? = some y) (hy : f y = none) :
    ((l.set i x).filterMap f).Perm ((f x).toList ++ l.filterMap f) := by
  obtain ⟨hlt, rfl⟩ := List.getElem?_eq_some_iff.mp hi
  have hnew := (List.set_perm_cons_eraseIdx hlt x).filterMap f
  have hold := (List.getElem_cons_eraseIdx_perm hlt).filterMap f
  rw [List.filterMap_cons_none hy] at hold
  refine hnew.trans ?_
  cases hx : f x with
  | none =>
    rw [List.filterMap_cons_none hx]
    exact hold
  | some b =>
    rw [List.filterMap_cons_some hx]
    exact hold.cons b

/-- A step of process `i` changes a sum over the processes by what it changes there. -/
theorem sum_map_set (f : α → Nat) (hi : l[i]? = some y) :
    ((l.set i x).map f).sum + f y = (l.map f).sum + f x := by
  induction l generalizing i with
  | nil => simp at hi
  | cons z l ih =>
    cases i with
    | zero =>
      simp only [List.getElem?_cons_zero, Option.some.injEq] at hi
      subst hi
      simp only [List.set_cons_zero, List.map_cons, List.sum_cons]
      omega
    | succ i =>
      have hrest := ih (i := i) (by simpa using hi)
      simp only [List.set_cons_succ, List.map_cons, List.sum_cons]
      omega

/-! ## Exclusion -/

/-- At most one position holds a value with `P`. -/
def AtMostOne (P : α → Prop) (l : List α) : Prop :=
  ∀ (i j : Nat) x y, l[i]? = some x → l[j]? = some y → P x → P y → i = j

variable {P : α → Prop}

/-- Fewer positions with `P` exclude each other as well. -/
theorem AtMostOne.of_forall (h : AtMostOne P l) {l' : List α}
    (hfrom : ∀ (i : Nat) x, l'[i]? = some x → P x → ∃ y, l[i]? = some y ∧ P y) : AtMostOne P l' := by
  intro i j x y hx hy hPx hPy
  obtain ⟨x', hx', hPx'⟩ := hfrom i x hx hPx
  obtain ⟨y', hy', hPy'⟩ := hfrom j y hy hPy
  exact h i j x' y' hx' hy' hPx' hPy'

/-- A position may come to hold a value with `P` when no other one does. -/
theorem AtMostOne.set (h : AtMostOne P l) (hi : i < l.length)
    (hx : P x → ∀ j y, j ≠ i → l[j]? = some y → ¬ P y) : AtMostOne P (l.set i x) := by
  intro j k y z hy hz hPy hPz
  rcases getElem?_of_set hi hy with ⟨rfl, rfl⟩ | ⟨hj, hold⟩ <;>
    rcases getElem?_of_set hi hz with ⟨rfl, rfl⟩ | ⟨hk, hold'⟩
  · rfl
  · exact absurd hPz (hx hPy k z hk hold')
  · exact absurd hPy (hx hPz j y hj hold)
  · exact h j k y z hold hold' hPy hPz

/-- The only position with `P` may be a new one. -/
theorem AtMostOne.concat_only (hnone : ∀ (i : Nat) y, l[i]? = some y → ¬ P y) :
    AtMostOne P (l ++ [x]) := by
  intro j k y z hy hz hPy hPz
  rcases getElem?_of_concat hy with hy | ⟨hj, -⟩
  · exact absurd hPy (hnone j y hy)
  · rcases getElem?_of_concat hz with hz | ⟨hk, -⟩
    · exact absurd hPz (hnone k z hz)
    · rw [hj, hk]

theorem AtMostOne.concat (h : AtMostOne P l) (hx : ¬ P x) : AtMostOne P (l ++ [x]) := by
  intro j k y z hy hz hPy hPz
  rcases getElem?_of_concat hy with hy | ⟨-, rfl⟩
  · rcases getElem?_of_concat hz with hz | ⟨-, rfl⟩
    · exact h j k y z hy hz hPy hPz
    · exact absurd hPz hx
  · exact absurd hPy hx

end PovDeposit.Lib
