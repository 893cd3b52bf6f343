import Mathlib.Algebra.Order.Ring.Defs
import Mathlib.Algebra.Order.Group.Defs

namespace Cimp

/-- A clock that runs from `start` for `length`. -/
structure Deadline (K : Type) where
  start : K
  length : K

namespace Deadline

inductive Stage
  | running | warned | expired
deriving DecidableEq, Repr

def Stage.rank : Stage → ℕ
  | running => 0
  | warned => 1
  | expired => 2

variable {K : Type} [CommRing K] [LinearOrder K] [IsStrictOrderedRing K]

def due (d : Deadline K) : K := d.start + d.length

def mark (d : Deadline K) (fraction : K) : K := d.start + (d.due - d.start) * fraction

def stage (d : Deadline K) (fraction now : K) : Stage :=
  if d.length ≤ now - d.start then .expired
  else if d.length * fraction ≤ now - d.start then .warned
  else .running

theorem due_le_iff (d : Deadline K) (now : K) : d.due ≤ now ↔ d.length ≤ now - d.start := by
  rw [due, le_sub_iff_add_le, add_comm]

theorem mark_le_iff (d : Deadline K) (fraction now : K) :
    d.mark fraction ≤ now ↔ d.length * fraction ≤ now - d.start := by
  have hlength : d.due - d.start = d.length := by simp [due]
  rw [mark, hlength, le_sub_iff_add_le, add_comm]

theorem stage_eq_expired_iff (d : Deadline K) (fraction now : K) :
    d.stage fraction now = .expired ↔ d.due ≤ now := by
  rw [due_le_iff, stage]
  split_ifs <;> simp_all

theorem stage_eq_warned_iff (d : Deadline K) (fraction now : K) :
    d.stage fraction now = .warned ↔ now < d.due ∧ d.mark fraction ≤ now := by
  rw [← not_le, due_le_iff, mark_le_iff, stage]
  split_ifs <;> simp_all

theorem stage_mono (d : Deadline K) (fraction : K) {now later : K} (h : now ≤ later) :
    (d.stage fraction now).rank ≤ (d.stage fraction later).rank := by
  have helapsed : now - d.start ≤ later - d.start := sub_le_sub_right h _
  by_cases hexpired : d.length ≤ now - d.start
  · have hlater : d.length ≤ later - d.start := hexpired.trans helapsed
    simp [stage, hexpired, hlater]
  · by_cases hwarned : d.length * fraction ≤ now - d.start
    · have hlater : d.length * fraction ≤ later - d.start := hwarned.trans helapsed
      simp only [stage, hexpired, hwarned, hlater, if_true, if_false]
      split_ifs <;> simp [Stage.rank]
    · simp [stage, hexpired, hwarned, Stage.rank]

end Deadline

end Cimp
