import Cimp.Lib.Double

namespace Cimp.Double

/-- The exponent of the doubles around `q`, that of the subnormal ones at least. -/
def binade (q : ℚ) : ℤ := max (Int.log 2 q) (-1022)

def gap (q : ℚ) : ℚ := 2 ^ (binade q - 52)

/-- The double nearest to a number that is not negative, were there no largest one. -/
def binary64 (q : ℚ) : ℚ := nearest (q / gap q) * gap q

structure Decimal where
  digits : ℕ
  power : ℤ

def Decimal.value (d : Decimal) : ℚ := d.digits * 10 ^ d.power

/-- The decimals of `k` digits around a number, the nearest first. -/
def candidates (q : ℚ) (k : ℕ) : List Decimal :=
  let power := Int.log 10 q + 1 - k
  let scaled := q / 10 ^ power
  [nearest scaled, ⌊scaled⌋, ⌈scaled⌉].map fun n => ⟨n.toNat, power⟩

/-- The first decimal that rounds to the double, of the fewest digits. -/
def shortest (q : ℚ) : Decimal :=
  (((List.range 17).flatMap fun k => candidates q (k + 1)).find? fun d => binary64 d.value = q).getD ⟨0, 0⟩

section Nearest

variable {q : ℚ} {n : ℤ}

theorem nearest_eq_of_near (h : |q - n| < 1 / 2) : nearest q = n := by
  obtain ⟨hlow, hhigh⟩ := abs_lt.mp h
  obtain ⟨hlow', hhigh'⟩ := abs_le.mp (abs_sub_nearest q)
  have hlt : (nearest q : ℚ) < n + 1 := by linarith
  have hgt : (n : ℚ) < nearest q + 1 := by linarith
  have hlt' : nearest q < n + 1 := by exact_mod_cast hlt
  have hgt' : n < nearest q + 1 := by exact_mod_cast hgt
  omega

theorem nearest_nonneg (h : 0 ≤ q) : 0 ≤ nearest q := by
  obtain ⟨-, hhigh⟩ := abs_le.mp (abs_sub_nearest q)
  have hgt : (-1 : ℚ) < nearest q := by linarith
  have hgt' : -1 < nearest q := by exact_mod_cast hgt
  omega

theorem nearest_le (h : q < n) : nearest q ≤ n := by
  obtain ⟨hlow, -⟩ := abs_le.mp (abs_sub_nearest q)
  have hlt : (nearest q : ℚ) < n + 1 := by linarith
  have hlt' : nearest q < n + 1 := by exact_mod_cast hlt
  omega

end Nearest

section Gap

variable {q : ℚ} {e : ℤ}

theorem gap_pos (q : ℚ) : 0 < gap q := zpow_pos two_pos _

theorem two_pow_mul_gap (k : ℕ) (q : ℚ) : 2 ^ k * gap q = 2 ^ (binade q - 52 + k) := by
  rw [gap, zpow_add₀ two_ne_zero, zpow_natCast, mul_comm]

theorem two_pow_binade (q : ℚ) : (2 : ℚ) ^ binade q = 2 ^ 52 * gap q := by
  rw [two_pow_mul_gap]
  congr 1
  push_cast
  ring

theorem two_pow_binade_succ (q : ℚ) : (2 : ℚ) ^ (binade q + 1) = 2 ^ 53 * gap q := by
  rw [two_pow_mul_gap]
  congr 1
  push_cast
  ring

theorem lt_two_pow_binade_succ (q : ℚ) : q < 2 ^ (binade q + 1) := by
  have hlog := Int.lt_zpow_succ_log_self (b := 2) one_lt_two q
  rw [Nat.cast_two] at hlog
  apply hlog.trans_le
  apply zpow_le_zpow_right₀ one_le_two
  rw [binade]
  omega

theorem log_lt_of_lt (hq : 0 < q) (h : q < 2 ^ e) : Int.log 2 q < e := by
  rw [← Int.lt_zpow_iff_log_lt (b := 2) one_lt_two hq, Nat.cast_two]
  exact h

theorem le_log_of_le (hq : 0 < q) (h : 2 ^ e ≤ q) : e ≤ Int.log 2 q := by
  rw [← Int.zpow_le_iff_le_log (b := 2) one_lt_two hq, Nat.cast_two]
  exact h

end Gap

variable {x y q : ℚ} {n : ℕ}

theorem div_gap_lt (q : ℚ) : q / gap q < 2 ^ 53 := by
  rw [div_lt_iff₀ (gap_pos q), ← two_pow_binade_succ]
  exact lt_two_pow_binade_succ q

theorem binary64_of_multiple {k : ℤ} (h : q = k * gap q) : binary64 q = q := by
  have hscaled : q / gap q = k := by rwa [div_eq_iff (gap_pos q).ne']
  rw [binary64, hscaled, nearest_intCast, ← h]

theorem binary64_multiple (h : n ≤ 2 ^ 53) : binary64 (n * gap q) = n * gap q := by
  have hgap := gap_pos q
  rcases Nat.eq_zero_or_pos n with rfl | hn
  · exact binary64_of_multiple (k := 0) (by simp)
  have hpos : 0 < n * gap q := mul_pos (Nat.cast_pos.mpr hn) hgap
  rcases h.eq_or_lt with rfl | hlt
  · have hpower : ((2 ^ 53 : ℕ) : ℚ) * gap q = 2 ^ (binade q + 1) := by
      rw [two_pow_binade_succ]
      norm_num
    have hbinade : binade (2 ^ (binade q + 1)) = binade q + 1 := by
      have hlog := Int.log_zpow (R := ℚ) (b := 2) one_lt_two (binade q + 1)
      rw [Nat.cast_two] at hlog
      rw [binade, hlog]
      have hle : -1022 ≤ binade q := le_max_right _ _
      omega
    rw [hpower]
    apply binary64_of_multiple (k := 2 ^ 52)
    have hscale := two_pow_binade (2 ^ (binade q + 1))
    rw [hbinade] at hscale
    push_cast
    exact hscale
  · have hbelow : n * gap q < 2 ^ (binade q + 1) := by
      rw [two_pow_binade_succ]
      apply mul_lt_mul_of_pos_right _ hgap
      exact_mod_cast hlt
    have hlog := log_lt_of_lt hpos hbelow
    obtain ⟨j, hj⟩ : ∃ j : ℕ, binade q = binade (n * gap q) + j := by
      have hle : binade (n * gap q) ≤ binade q := by
        rw [binade]
        have hleast : -1022 ≤ binade q := le_max_right _ _
        omega
      exact ⟨(binade q - binade (n * gap q)).toNat, by omega⟩
    have hscale : gap q = 2 ^ j * gap (n * gap q) := by
      have hexponent : binade (n * gap q) - 52 + j = binade q - 52 := by omega
      rw [two_pow_mul_gap, hexponent, gap]
    apply binary64_of_multiple (k := n * 2 ^ j)
    calc (n : ℚ) * gap q = n * (2 ^ j * gap (n * gap q)) := by rw [← hscale]
      _ = ((n * 2 ^ j : ℤ) : ℚ) * gap (n * gap q) := by
        push_cast
        ring

theorem binary64_binary64 (hq : 0 ≤ q) : binary64 (binary64 q) = binary64 q := by
  have hnonneg : 0 ≤ nearest (q / gap q) := nearest_nonneg (div_nonneg hq (gap_pos q).le)
  have hle : nearest (q / gap q) ≤ 2 ^ 53 := by
    apply nearest_le
    push_cast
    exact div_gap_lt q
  obtain ⟨n, hn⟩ := Int.eq_ofNat_of_zero_le hnonneg
  have hround : binary64 q = n * gap q := by rw [binary64, hn, Int.cast_natCast]
  rw [hround]
  apply binary64_multiple
  have hcast : (n : ℤ) ≤ 2 ^ 53 := hn ▸ hle
  exact_mod_cast hcast

theorem binary64_nonneg (hq : 0 ≤ q) : 0 ≤ binary64 q := by
  apply mul_nonneg _ (gap_pos q).le
  exact_mod_cast nearest_nonneg (div_nonneg hq (gap_pos q).le)

theorem binary64_zero : binary64 0 = 0 := binary64_of_multiple (k := 0) (by simp)

theorem binary64_of_scaled {k : ℤ} (hx : x = k * gap y) (h : |y - x| < gap y / 2) : binary64 y = x := by
  have hgap := gap_pos y
  have hnear : |y / gap y - k| < 1 / 2 := by
    have hscaled : y / gap y - k = (y - x) / gap y := by
      rw [sub_div, hx, mul_div_cancel_right₀ _ hgap.ne']
    rw [hscaled, abs_div, abs_of_pos hgap, div_lt_iff₀ hgap]
    linarith
  rw [binary64, nearest_eq_of_near hnear, ← hx]

theorem binary64_of_near (hx : binary64 x = x) (hpos : 0 < x) (h : |y - x| < x / 2 ^ 54) : binary64 y = x := by
  have hgap := gap_pos x
  have hbelow : x < 2 ^ 53 * gap x := by
    rw [← two_pow_binade_succ]
    exact lt_two_pow_binade_succ x
  obtain ⟨hlow, hhigh⟩ := abs_lt.mp h
  obtain ⟨k, hk⟩ : ∃ k : ℤ, x = k * gap x := ⟨_, hx.symm⟩
  have hy : 0 < y := by linarith
  -- the multiple of the gap after `x` is not above the next binade
  have hnext : x + gap x ≤ 2 ^ 53 * gap x := by
    have hlt : (k : ℚ) * gap x < 2 ^ 53 * gap x := hk ▸ hbelow
    have hk' : (k : ℚ) < 2 ^ 53 := lt_of_mul_lt_mul_right hlt hgap.le
    have hint : k + 1 ≤ 2 ^ 53 := by exact_mod_cast hk'
    have hcast : (k + 1 : ℚ) ≤ 2 ^ 53 := by exact_mod_cast hint
    calc x + gap x = (k + 1) * gap x := by rw [add_mul, one_mul, ← hk]
      _ ≤ 2 ^ 53 * gap x := mul_le_mul_of_nonneg_right hcast hgap.le
  have hlog : Int.log 2 y < binade x + 1 := by
    apply log_lt_of_lt hy
    rw [two_pow_binade_succ]
    linarith
  have hx' : binade x = max (Int.log 2 x) (-1022) := rfl
  have hy' : binade y = max (Int.log 2 y) (-1022) := rfl
  rcases eq_or_ne (binade y) (binade x) with hsame | hother
  · have hgaps : gap y = gap x := by rw [gap, hsame, gap]
    apply binary64_of_scaled (k := k)
    · rwa [hgaps]
    · rw [hgaps]
      linarith
  · -- only the first double of a binade has numbers near to it in the binade before
    have hfirst : binade x = Int.log 2 x := by omega
    have hfrom : 2 ^ 52 * gap x ≤ x := by
      rw [← two_pow_binade, hfirst]
      have hle := Int.zpow_log_le_self (b := 2) one_lt_two hpos
      rwa [Nat.cast_two] at hle
    have hto : y < 2 ^ 52 * gap x := by
      rw [← two_pow_binade]
      by_contra hge
      have hle := le_log_of_le hy (not_lt.mp hge)
      omega
    have hhalf : binade y = binade x - 1 := by
      have hle : binade x - 1 ≤ Int.log 2 y := by
        apply le_log_of_le hy
        rw [zpow_sub_one₀ two_ne_zero, two_pow_binade]
        linarith
      omega
    have hgaps : gap x = 2 * gap y := by
      have hscale := two_pow_mul_gap 1 y
      rw [pow_one, hhalf] at hscale
      rw [hscale, gap]
      congr 1
      ring
    apply binary64_of_scaled (k := 2 * k)
    · push_cast
      rw [hk, hgaps]
      ring
    · have hk' : (k : ℚ) < 2 ^ 52 + 1 := by
        have hlt : (k : ℚ) * gap x < (2 ^ 52 + 1) * gap x := by linarith
        exact lt_of_mul_lt_mul_right hlt hgap.le
      have hint : k ≤ 2 ^ 52 := by
        have hcast : k < 2 ^ 52 + 1 := by exact_mod_cast hk'
        omega
      have hle : (k : ℚ) ≤ 2 ^ 52 := by exact_mod_cast hint
      have hfirst' : x ≤ 2 ^ 52 * gap x := by
        calc x = k * gap x := hk
          _ ≤ 2 ^ 52 * gap x := mul_le_mul_of_nonneg_right hle hgap.le
      linarith

theorem exists_candidate (hq : binary64 q = q) (hpos : 0 < q) : ∃ d ∈ candidates q 17, binary64 d.value = q := by
  obtain ⟨power, hpower⟩ : ∃ power : ℤ, power = Int.log 10 q + 1 - (17 : ℕ) := ⟨_, rfl⟩
  have hunit : (0 : ℚ) < 10 ^ power := zpow_pos (by norm_num) power
  have hsmall : 10 ^ 16 * (10 : ℚ) ^ power ≤ q := by
    have hlog := Int.zpow_log_le_self (b := 10) (by norm_num) hpos
    have hscale : (10 : ℚ) ^ 16 * 10 ^ power = 10 ^ Int.log 10 q := by
      rw [← zpow_natCast, ← zpow_add₀ (by norm_num), hpower]
      congr 1
      push_cast
      ring
    rw [hscale]
    exact_mod_cast hlog
  refine ⟨⟨(nearest (q / 10 ^ power)).toNat, power⟩, ?_, ?_⟩
  · rw [candidates, ← hpower]
    exact List.mem_cons_self
  · have hdigits : ((nearest (q / 10 ^ power)).toNat : ℚ) = nearest (q / 10 ^ power) := by
      have hnonneg := nearest_nonneg (div_nonneg hpos.le hunit.le)
      exact_mod_cast Int.toNat_of_nonneg hnonneg
    rw [Decimal.value, hdigits]
    apply binary64_of_near hq hpos
    have hnear := abs_sub_nearest (q / 10 ^ power)
    have hscaled : nearest (q / 10 ^ power) * 10 ^ power - q = -((q / 10 ^ power - nearest (q / 10 ^ power)) * 10 ^ power) := by
      rw [sub_mul, div_mul_cancel₀ _ hunit.ne']
      ring
    rw [hscaled, abs_neg, abs_mul, abs_of_pos hunit]
    calc |q / 10 ^ power - nearest (q / 10 ^ power)| * 10 ^ power
        ≤ 1 / 2 * 10 ^ power := mul_le_mul_of_nonneg_right hnear hunit.le
      _ < q / 2 ^ 54 := by linarith

theorem binary64_shortest (hq : binary64 q = q) (hpos : 0 < q) : binary64 (shortest q).value = q := by
  obtain ⟨d, hd, hvalue⟩ := exists_candidate hq hpos
  have hmem : d ∈ (List.range 17).flatMap fun k => candidates q (k + 1) :=
    List.mem_flatMap.mpr ⟨16, List.mem_range.mpr (by omega), hd⟩
  rw [shortest]
  cases hfind : ((List.range 17).flatMap fun k => candidates q (k + 1)).find? fun d => binary64 d.value = q with
  | none =>
    have hnone := List.find?_eq_none.mp hfind d hmem
    rw [decide_eq_true_eq] at hnone
    exact absurd hvalue hnone
  | some first =>
    have hfirst := List.find?_some hfind
    rw [decide_eq_true_eq] at hfirst
    rw [Option.getD_some, hfirst]

theorem shortest_digits_pos (hq : binary64 q = q) (hpos : 0 < q) : 0 < (shortest q).digits := by
  rw [Nat.pos_iff_ne_zero]
  intro hzero
  have hvalue := binary64_shortest hq hpos
  rw [Decimal.value, hzero, Nat.cast_zero, zero_mul, binary64_zero] at hvalue
  exact hpos.ne hvalue

end Cimp.Double
