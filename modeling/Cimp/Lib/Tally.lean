import Mathlib.Data.List.Count
import Mathlib.Logic.Function.Basic
import Mathlib.Tactic.Common

namespace Cimp.Tally

universe u

variable {κ : Type u} [DecidableEq κ] {held held' : List κ} {k : κ}

/-- How often each key is held, as a map in which a key that is not held has no entry. -/
def tally (held : List κ) (k : κ) : Option ℕ := if held.count k = 0 then none else some (held.count k)

theorem tally_getD (held : List κ) (k : κ) : (tally held k).getD 0 = held.count k := by
  unfold tally
  split
  · rename_i hzero
    exact hzero.symm
  · rfl

theorem tally_eq_none : tally held k = none ↔ k ∉ held := by
  unfold tally
  rw [← List.count_eq_zero]
  split <;> simp [*]

theorem tally_congr (h : ∀ k, held.count k = held'.count k) : tally held = tally held' := by
  funext k
  rw [tally, tally, h]

theorem update_tally_acquire (held : List κ) (k : κ) :
    Function.update (tally held) k (some (held.count k + 1)) = tally (k :: held) := by
  funext j
  by_cases hj : j = k
  · rw [hj, Function.update_self, tally, List.count_cons_self, if_neg (Nat.succ_ne_zero _)]
  · rw [Function.update_of_ne hj, tally, tally, List.count_cons_of_ne (Ne.symm hj)]

theorem update_tally_release (held : List κ) (k : κ) :
    Function.update (tally held) k (if 0 < held.count k - 1 then some (held.count k - 1) else none) =
      tally (held.erase k) := by
  funext j
  by_cases hj : j = k
  · rw [hj, Function.update_self, tally, List.count_erase_self]
    by_cases hlast : held.count k - 1 = 0
    · rw [if_neg (by omega), if_pos hlast]
    · rw [if_pos (by omega), if_neg hlast]
  · rw [Function.update_of_ne hj, tally, tally, List.count_erase_of_ne hj]

end Cimp.Tally
