import Mathlib.Data.List.Basic

/-! # Writes that act on one key

A store in which every write changes what is found under one key, as a function
of what was found there before. What a sequence of writes leaves under a key
depends on the writes of that key alone, so two sequences that order the writes
of every key in the same way lead to stores in which the same is found.
-/

namespace AutoTrade.Library

/-- A store whose writes act on one key each. -/
structure KeyedStore (σ κ ν ω : Type) [DecidableEq κ] where
  exec : σ → ω → σ
  lookup : σ → κ → Option ν
  key : ω → κ
  update : ω → Option ν → Option ν
  lookup_exec : ∀ s w k, lookup (exec s w) k =
    if k = key w then update w (lookup s k) else lookup s k

namespace KeyedStore

variable {σ κ ν ω : Type} [DecidableEq κ] (store : KeyedStore σ κ ν ω)

def execAll (s : σ) (ws : List ω) : σ := ws.foldl store.exec s

/-- The writes of one key. -/
def writesOf (k : κ) (ws : List ω) : List ω := ws.filter fun w => decide (store.key w = k)

theorem execAll_append (s : σ) (ws vs : List ω) :
    store.execAll s (ws ++ vs) = store.execAll (store.execAll s ws) vs :=
  List.foldl_append

/-- What is found under a key is made by the writes of that key. -/
theorem lookup_execAll (s : σ) (ws : List ω) (k : κ) :
    store.lookup (store.execAll s ws) k =
      (store.writesOf k ws).foldl (fun v w => store.update w v) (store.lookup s k) := by
  induction ws generalizing s with
  | nil => rfl
  | cons w rest ih =>
      have hrest := ih (store.exec s w)
      rw [store.lookup_exec] at hrest
      by_cases hk : k = store.key w
      · have hmine : store.writesOf k (w :: rest) = w :: store.writesOf k rest :=
          List.filter_cons_of_pos (by simp [hk])
        rw [if_pos hk] at hrest
        rw [hmine]
        exact hrest
      · have hother : store.writesOf k (w :: rest) = store.writesOf k rest :=
          List.filter_cons_of_neg (by simp [Ne.symm hk])
        rw [if_neg hk] at hrest
        rw [hother]
        exact hrest

/-- A write may be done before others that leave its key alone. -/
theorem lookup_execAll_early {ws : List ω} {w : ω} (h : ∀ v ∈ ws, store.key v ≠ store.key w)
    (s : σ) (k : κ) :
    store.lookup (store.execAll (store.exec s w) ws) k =
      store.lookup (store.execAll s (ws ++ [w])) k := by
  have hsame : store.writesOf k (w :: ws) = store.writesOf k (ws ++ [w]) := by
    unfold writesOf
    by_cases hk : store.key w = k
    · have hnone : ws.filter (fun v => decide (store.key v = k)) = [] := by
        apply List.filter_eq_nil_iff.mpr
        intro v hv
        simpa [hk] using h v hv
      simp [List.filter_append, hk, hnone]
    · simp [List.filter_append, hk]
  have hearly := store.lookup_execAll s (w :: ws) k
  rw [hsame, ← store.lookup_execAll] at hearly
  exact hearly

end KeyedStore

end AutoTrade.Library
