/-
  Keyed stores that can be rebuilt from a log.

  An entry of a log names at most one key (`key`) and says how the value there changes
  (`upd`). `applyAt` is the change as a change of the whole store, so replaying a log is a
  fold. `replay_apply`: at one key a replay shows the entries of that key only.
  `exec_replay`: when every step of a machine appends to a log what it did to the store, the
  store at the end of a run is the replay of what the run appended.
-/
import PovDeposit.Lib.Machine
import Mathlib.Logic.Function.Basic

namespace PovDeposit.Lib

section Replay

variable {κ β ε : Type*} [DecidableEq κ] (key : ε → Option κ) (upd : ε → β → β)

/-- The store after the entry `e`. -/
def applyAt (store : κ → β) (e : ε) : κ → β :=
  match key e with
  | some k => Function.update store k (upd e (store k))
  | none => store

/-- The store after all the entries of a log. -/
def replay (store : κ → β) (log : List ε) : κ → β := log.foldl (applyAt key upd) store

variable {key upd}

theorem applyAt_of_key {store : κ → β} {e : ε} {k : κ} (h : key e = some k) (k' : κ) :
    applyAt key upd store e k' = if k' = k then upd e (store k) else store k' := by
  unfold applyAt
  rw [h]
  exact Function.update_apply store k _ k'

theorem applyAt_of_none {store : κ → β} {e : ε} (h : key e = none) :
    applyAt key upd store e = store := by
  unfold applyAt
  rw [h]

theorem replay_append (store : κ → β) (log log' : List ε) :
    replay key upd store (log ++ log') = replay key upd (replay key upd store log) log' :=
  List.foldl_append

/-- At the key `k` a replay is the fold of the entries of `k`. -/
theorem replay_apply (store : κ → β) (log : List ε) (k : κ) :
    replay key upd store log k =
      (log.filter fun e => key e = some k).foldl (fun x e => upd e x) (store k) := by
  induction log generalizing store with
  | nil => rfl
  | cons e log ih =>
    have hstep : replay key upd store (e :: log) = replay key upd (applyAt key upd store e) log :=
      rfl
    rw [hstep, ih]
    by_cases hk : key e = some k
    · rw [List.filter_cons_of_pos (by simpa using hk), List.foldl_cons, applyAt_of_key hk,
        if_pos rfl]
    · rw [List.filter_cons_of_neg (by simpa using hk)]
      cases hkey : key e with
      | none => rw [applyAt_of_none hkey]
      | some k' =>
        rw [applyAt_of_key hkey, if_neg]
        rintro rfl
        exact hk hkey

/-- Logs with the same changes of the key `k` leave the same value there. -/
theorem replay_congr {store store' : κ → β} {log log' : List ε} {k : κ}
    (hstore : store k = store' k)
    (hlog : (log.filter fun e => key e = some k).map upd =
      (log'.filter fun e => key e = some k).map upd) :
    replay key upd store log k = replay key upd store' log' k := by
  have hfold : ∀ (l : List ε) (x : β), l.foldl (fun x e => upd e x) x =
      (l.map upd).foldl (fun x f => f x) x := fun l x => by rw [List.foldl_map]
  rw [replay_apply, replay_apply, hfold, hfold, hlog, hstore]

end Replay

namespace Machine

variable {σ α κ β ε : Type*} [DecidableEq κ] (M : Machine σ α) {key : ε → Option κ}
  {upd : ε → β → β}

/-- The store at the end of a run is the replay, over the store at its start, of what the run
    appended to the log. -/
theorem exec_replay {I : σ → Prop} (store : σ → κ → β) (log : σ → List ε)
    (hI : ∀ s a s', I s → M.step s a = some s' → I s')
    (hstep : ∀ s a s', I s → M.step s a = some s' → ∃ es, log s' = log s ++ es ∧
      store s' = replay key upd (store s) es)
    {s s' : σ} {as : List α} (h : M.exec s as = some s') (hs : I s) :
    ∃ es, log s' = log s ++ es ∧ store s' = replay key upd (store s) es := by
  refine M.exec_relates (R := fun s s' => ∃ es, log s' = log s ++ es ∧
    store s' = replay key upd (store s) es) hI ?_ ?_ hstep h hs
  · exact fun s => ⟨[], (List.append_nil _).symm, rfl⟩
  · rintro s t u ⟨es, hlog, hstore⟩ ⟨es', hlog', hstore'⟩
    refine ⟨es ++ es', by rw [hlog', hlog, List.append_assoc], ?_⟩
    rw [hstore', hstore, replay_append]

end Machine

end PovDeposit.Lib
