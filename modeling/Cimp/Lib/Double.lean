import Mathlib.Algebra.Order.Round
import Mathlib.Data.Int.Log
import Mathlib.Data.Rat.Floor
import Mathlib.Tactic.FieldSimp
import Mathlib.Tactic.Linarith
import Mathlib.Tactic.LinearCombination
import Mathlib.Tactic.NormNum
import Mathlib.Tactic.Positivity
import Mathlib.Tactic.Ring
import Mathlib.Tactic.Zify

namespace Cimp.Double

-- a format keeps `bits` binary digits after the leading one; exponents are unbounded
variable (bits : ℕ)

/-- Of two nearest integers, the even one. -/
def nearest (q : ℚ) : ℤ := if Int.fract q = 1 / 2 ∧ Even ⌊q⌋ then ⌊q⌋ else round q

def ulp (q : ℚ) : ℚ := 2 ^ (Int.log 2 q - bits)

def rounded (q : ℚ) : ℚ := nearest (q / ulp bits q) * ulp bits q

theorem nearest_intCast (n : ℤ) : nearest n = n := by
  rw [nearest, if_neg (by norm_num), round_intCast]

theorem abs_sub_nearest (q : ℚ) : |q - nearest q| ≤ 1 / 2 := by
  unfold nearest
  split
  · rename_i h
    rw [Int.self_sub_floor, h.1]
    norm_num
  · exact abs_sub_round q

/-- A number as an IEEE 754 double holds it, within the range of the normal ones. -/
def double (q : ℚ) : ℚ := rounded 52 q

/-- `Math.round((part / whole) * 100)`. -/
def percent (part whole : ℕ) : ℤ := round (double (double (double part / double whole) * 100))

end Cimp.Double
