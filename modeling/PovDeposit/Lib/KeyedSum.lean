/-
  Sums over the values of a keyed store.

  A store is Mathlib's `AList`: a list of entries with distinct keys. `total f s` adds up
  `f` over the stored values. Writing a new key adds its value to the total
  (`total_insert_of_notMem`); overwriting a key replaces the old value by the new one
  (`total_insert_of_lookup`). Both are stated additively, so they hold in any commutative
  monoid.

  `Kept r s s'` says that what `s` holds is in `s'` under the same key, changed along `r` at
  most: the frame of a table whose rows are never deleted.
-/
import Mathlib.Data.List.AList
import Mathlib.Algebra.BigOperators.Group.List.Basic
import Mathlib.Algebra.Order.BigOperators.Group.List

namespace PovDeposit.Lib

variable {κ ν M : Type*} [AddCommMonoid M]

/-- The sum of `f` over the values stored in `s`. -/
def total (f : ν → M) (s : AList fun _ : κ => ν) : M :=
  (s.entries.map fun e => f e.2).sum

@[simp] theorem total_empty (f : ν → M) : total f (∅ : AList fun _ : κ => ν) = 0 := rfl

variable [DecidableEq κ]

/-- An entry of a list with distinct keys is the head of a permutation of it. -/
theorem perm_kerase {k : κ} {v : ν} {l : List (Σ _ : κ, ν)} (h : ⟨k, v⟩ ∈ l)
    (hn : l.NodupKeys) : l.Perm (⟨k, v⟩ :: l.kerase k) := by
  induction l with
  | nil => simp at h
  | cons e l ih =>
    obtain ⟨hnot, hl⟩ := List.nodupKeys_cons.mp hn
    rcases List.mem_cons.mp h with rfl | hmem
    · rw [List.kerase_cons_eq (β := fun _ => ν) (s := ⟨k, v⟩) rfl]
    · have hne : k ≠ e.1 := by
        rintro rfl
        exact hnot (List.mem_keys_of_mem (β := fun _ => ν) (s := ⟨e.1, v⟩) hmem)
      rw [List.kerase_cons_ne hne]
      exact ((ih hmem hl).cons e).trans (List.Perm.swap _ _ _)

/-- Writing a key that was not stored adds its value. -/
theorem total_insert_of_lookup_eq_none (f : ν → M) {s : AList fun _ : κ => ν} {k : κ} (v : ν)
    (h : s.lookup k = none) : total f (s.insert k v) = f v + total f s := by
  have hk : k ∉ s := AList.lookup_eq_none.mp h
  rw [total, AList.entries_insert_of_notMem hk]
  simp [total]

/-- Overwriting a stored key exchanges the old value for the new one. -/
theorem total_insert_of_lookup (f : ν → M) {s : AList fun _ : κ => ν} {k : κ} {old : ν} (v : ν)
    (h : s.lookup k = some old) : total f (s.insert k v) + f old = f v + total f s := by
  have hmem : ⟨k, old⟩ ∈ s.entries := List.of_mem_dlookup h
  have hperm := (perm_kerase hmem s.nodupKeys).map fun e => f e.2
  have hsum : total f s = f old + ((s.entries.kerase k).map fun e => f e.2).sum := by
    rw [total, hperm.sum_eq, List.map_cons, List.sum_cons]
  have hins : total f (s.insert k v) = f v + ((s.entries.kerase k).map fun e => f e.2).sum := by
    rw [total, AList.entries_insert, List.map_cons, List.sum_cons]
  rw [hins, hsum, add_assoc, add_comm _ (f old)]

/-- A stored value weighs at most the total, when no value weighs less than nothing. -/
theorem le_total_of_lookup [PartialOrder M] [IsOrderedAddMonoid M] (f : ν → M)
    {s : AList fun _ : κ => ν} {k : κ} {v : ν} (h : s.lookup k = some v)
    (hf : ∀ k' v', s.lookup k' = some v' → 0 ≤ f v') : f v ≤ total f s := by
  refine List.single_le_sum ?_ _ (List.mem_map.mpr ⟨⟨k, v⟩, List.of_mem_dlookup h, rfl⟩)
  intro x hx
  obtain ⟨e, he, rfl⟩ := List.mem_map.mp hx
  exact hf e.1 e.2 (List.mem_dlookup s.nodupKeys he)

/-- What a write leaves under each key. -/
theorem lookup_insert (s : AList fun _ : κ => ν) (k k' : κ) (v : ν) :
    (s.insert k v).lookup k' = if k' = k then some v else s.lookup k' := by
  split
  · rename_i h
    rw [h, AList.lookup_insert]
  · rename_i h
    exact AList.lookup_insert_ne h

/-- What is found after a write was written now, or was there under another key. -/
theorem lookup_of_insert {s : AList fun _ : κ => ν} {k k' : κ} {v x : ν}
    (h : (s.insert k v).lookup k' = some x) : k' = k ∧ x = v ∨ k' ≠ k ∧ s.lookup k' = some x := by
  rw [lookup_insert] at h
  split at h
  · rename_i hk
    exact .inl ⟨hk, (Option.some.inj h).symm⟩
  · rename_i hk
    exact .inr ⟨hk, h⟩

/-! ## Stores that delete nothing -/

/-- Each value of `s` is in `s'` under its key, or an `r`-successor of it is. -/
def Kept (r : ν → ν → Prop) (s s' : AList fun _ : κ => ν) : Prop :=
  ∀ k v, s.lookup k = some v → ∃ v', s'.lookup k = some v' ∧ r v v'

section Kept

variable {r : ν → ν → Prop} {s : AList fun _ : κ => ν} {k : κ} {v : ν}

theorem kept_refl (hr : ∀ v, r v v) (s : AList fun _ : κ => ν) : Kept r s s :=
  fun _ v h => ⟨v, h, hr v⟩

/-- A write under a new key keeps what was there. -/
theorem kept_insert_new (hr : ∀ v, r v v) (h : s.lookup k = none) : Kept r s (s.insert k v) := by
  intro k' w hw
  refine ⟨w, ?_, hr w⟩
  rw [lookup_insert, if_neg ?_]
  · exact hw
  · rintro rfl
    rw [h] at hw
    cases hw

/-- So does a write over a value, along `r`. -/
theorem kept_insert (hr : ∀ v, r v v) {old : ν} (h : s.lookup k = some old) (hv : r old v) :
    Kept r s (s.insert k v) := by
  intro k' w hw
  rw [lookup_insert]
  split
  · rename_i hk
    subst hk
    obtain rfl : old = w := Option.some.inj (h.symm.trans hw)
    exact ⟨v, rfl, hv⟩
  · exact ⟨w, hw, hr w⟩

end Kept

end PovDeposit.Lib
