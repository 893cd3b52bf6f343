import Cimp.Lib.Binary64
import Cimp.Lib.JsonText
import Mathlib.Data.Bool.AllAny
import Mathlib.Data.List.DropRight
import Mathlib.Data.List.TakeWhile
import Mathlib.Data.Nat.Digits.Lemmas

namespace Cimp.Json

open Utf16 Double

def unitValue (u : UInt16) : ℕ := u.toNat - 48

def digitUnit (d : ℕ) : UInt16 := UInt16.ofNat (48 + d)

def numeralValue (s : Text) : ℕ := Nat.ofDigits 10 (s.reverse.map unitValue)

def numeral (n : ℕ) : Text := ((Nat.digits 10 n).map digitUnit).reverse

def powerValue : Text → ℤ
  | [] => 0
  | _ :: s =>
    if s.head? = some 0x2D then -numeralValue s.tail
    else if s.head? = some 0x2B then numeralValue s.tail
    else numeralValue s

/-- The number that a literal without a sign denotes. -/
def literalValue (s : Text) : ℚ :=
  let rest := s.dropWhile isDigit
  let places := if rest.head? = some 0x2E then rest.tail.takeWhile isDigit else []
  let power := if rest.head? = some 0x2E then rest.tail.dropWhile isDigit else rest
  numeralValue (s.takeWhile isDigit ++ places) * 10 ^ (powerValue power - places.length)

theorem literalValue_nonneg (s : Text) : 0 ≤ literalValue s :=
  mul_nonneg (Nat.cast_nonneg _) (zpow_pos (by norm_num) _).le

/-- The magnitude of a finite double. -/
structure Finite where
  value : ℚ
  nonneg : 0 ≤ value
  bounded : value < 2 ^ 1024
  double : binary64 value = value

/-- The numbers a literal can denote; `NaN` is not among them. -/
inductive Number
  | finite (negative : Bool) (magnitude : Finite)
  | infinite (negative : Bool)

def ofMagnitude (negative : Bool) (q : ℚ) (hq : 0 ≤ q) : Number :=
  if h : binary64 q < 2 ^ 1024 then .finite negative ⟨binary64 q, binary64_nonneg hq, h, binary64_binary64 hq⟩
  else .infinite negative

def ofLiteral (s : Text) : Number :=
  if s.head? = some 0x2D then ofMagnitude true (literalValue s.tail) (literalValue_nonneg _)
  else ofMagnitude false (literalValue s) (literalValue_nonneg _)

def powerSign (power : ℤ) : UInt16 := if power < 0 then 0x2D else 0x2B

def powerText (power : ℤ) : Text := if power = 0 then [] else 0x65 :: powerSign power :: numeral power.natAbs

def literalText (whole places : Text) (power : ℤ) : Text :=
  whole ++ ((if places = [] then [] else 0x2E :: places) ++ powerText power)

/-- The digits with `n` of them before the point, as `Number::toString` writes them. -/
def placed (digits : Text) (n : ℤ) : Text :=
  if digits.length ≤ n ∧ n ≤ 21 then literalText (digits ++ List.replicate (n - digits.length).toNat 0x30) [] 0
  else if 0 < n ∧ n ≤ 21 then literalText (digits.take n.toNat) (digits.drop n.toNat) 0
  else if -6 < n ∧ n ≤ 0 then literalText [0x30] (List.replicate (-n).toNat 0x30 ++ digits) 0
  else literalText (digits.take 1) (digits.drop 1) (n - 1)

def magnitudeText (q : ℚ) : Text :=
  let d := shortest q
  let digits := numeral d.digits
  placed (digits.rdropWhile (· == 0x30)) (d.power + digits.length)

/-- `Number::toString`, `none` where the number is not finite. -/
def toText : Number → Option Text
  | .infinite _ => none
  | .finite negative x =>
    if x.value = 0 then some [0x30]
    else if negative then some (0x2D :: magnitudeText x.value)
    else some (magnitudeText x.value)

def ecmaScript : NumberFormat := ⟨Number, ofLiteral, toText⟩

section Numerals

variable {n d : ℕ}

theorem digitUnit_isDigit (h : d < 10) : isDigit (digitUnit d) = true := by
  revert d
  decide

theorem unitValue_digitUnit (h : d < 10) : unitValue (digitUnit d) = d := by
  revert d
  decide

theorem digitUnit_ne_zero (h : d < 10) (hd : d ≠ 0) : digitUnit d ≠ 0x30 := by
  revert d
  decide

theorem numeral_digits (n : ℕ) : ∀ u ∈ numeral n, isDigit u = true := by
  intro u hu
  obtain ⟨d, hd, rfl⟩ := List.mem_map.mp (List.mem_reverse.mp hu)
  exact digitUnit_isDigit (Nat.digits_lt_base (by norm_num) hd)

theorem numeralValue_numeral (n : ℕ) : numeralValue (numeral n) = n := by
  have hdigits : (Nat.digits 10 n).map (unitValue ∘ digitUnit) = Nat.digits 10 n := by
    calc (Nat.digits 10 n).map (unitValue ∘ digitUnit) = (Nat.digits 10 n).map id := by
          apply List.map_congr_left
          intro d hd
          exact unitValue_digitUnit (Nat.digits_lt_base (by norm_num) hd)
      _ = Nat.digits 10 n := List.map_id _
  rw [numeralValue, numeral, List.reverse_reverse, List.map_map, hdigits, Nat.ofDigits_digits]

theorem numeralValue_append (s t : Text) : numeralValue (s ++ t) = numeralValue s * 10 ^ t.length + numeralValue t := by
  rw [numeralValue, List.reverse_append, List.map_append, Nat.ofDigits_append, List.length_map, List.length_reverse,
    numeralValue, numeralValue]
  ring

theorem numeralValue_zeros (n : ℕ) : numeralValue (List.replicate n 0x30) = 0 := by
  rw [numeralValue, List.reverse_replicate, List.map_replicate]
  exact Nat.ofDigits_replicate_zero

theorem numeral_head (h : 0 < n) : ∃ u rest, numeral n = u :: rest ∧ u ≠ 0x30 := by
  have hne : Nat.digits 10 n ≠ [] := Nat.digits_ne_nil_iff_ne_zero.mpr h.ne'
  have hlast := Nat.getLast_digit_ne_zero 10 h.ne'
  refine ⟨digitUnit ((Nat.digits 10 n).getLast hne), ((Nat.digits 10 n).dropLast.map digitUnit).reverse, ?_, ?_⟩
  · rw [numeral]
    nth_rewrite 1 [← List.dropLast_append_getLast hne]
    rw [List.map_append, List.reverse_append, List.map_singleton, List.reverse_singleton, List.singleton_append]
  · exact digitUnit_ne_zero (Nat.digits_lt_base (by norm_num) (List.getLast_mem hne)) hlast

end Numerals

section Literals

variable {s rest whole places : Text} {u : UInt16} {power n : ℤ}

/-- Where the digits of a text end. -/
def Stops (rest : Text) : Prop := ∀ u ∈ rest.head?, isDigit u = false

theorem takeWhile_stops (h : Stops rest) : rest.takeWhile isDigit = [] := by
  cases rest with
  | nil => rfl
  | cons u rest => rw [List.takeWhile_cons, h u rfl, if_neg (by decide)]

theorem dropWhile_stops (h : Stops rest) : rest.dropWhile isDigit = rest := by
  cases rest with
  | nil => rfl
  | cons u rest => rw [List.dropWhile_cons, h u rfl, if_neg (by decide)]

theorem takeWhile_digits (hs : ∀ u ∈ s, isDigit u = true) (h : Stops rest) : (s ++ rest).takeWhile isDigit = s := by
  rw [List.takeWhile_append_of_pos hs, takeWhile_stops h, List.append_nil]

theorem dropWhile_digits (hs : ∀ u ∈ s, isDigit u = true) (h : Stops rest) : (s ++ rest).dropWhile isDigit = rest := by
  rw [List.dropWhile_append_of_pos hs, dropWhile_stops h]

theorem powerText_head (power : ℤ) : ∀ u ∈ (powerText power).head?, u = 0x65 := by
  intro u hu
  rw [powerText] at hu
  split_ifs at hu with hzero
  · cases hu
  · exact (Option.some_inj.mp hu).symm

theorem powerText_stops (power : ℤ) : Stops (powerText power) := by
  intro u hu
  rw [powerText_head power u hu]
  decide

theorem powerSign_cases (power : ℤ) : powerSign power = 0x2B ∨ powerSign power = 0x2D := by
  rw [powerSign]
  split_ifs
  · exact .inr rfl
  · exact .inl rfl

theorem exponent_powerText (power : ℤ) : exponent (powerText power) = true := by
  rw [powerText]
  split_ifs with hzero
  · rfl
  · obtain ⟨d, ds, hnumeral, -⟩ := numeral_head (Int.natAbs_pos.mpr hzero)
    have hsign : some (powerSign power) = some 0x2B ∨ some (powerSign power) = some 0x2D :=
      (powerSign_cases power).imp (congrArg some) (congrArg some)
    have hdigits : (numeral power.natAbs).all isDigit = true := List.all_eq_true.mpr (numeral_digits _)
    rw [exponent, List.head?_cons, if_pos hsign, List.tail_cons, hdigits, hnumeral]
    rfl

theorem powerValue_powerText (power : ℤ) : powerValue (powerText power) = power := by
  rw [powerText]
  split_ifs with hzero
  · rw [powerValue, hzero]
  · rw [powerValue, List.head?_cons, List.tail_cons, numeralValue_numeral]
    by_cases hneg : power < 0
    · have hsign : powerSign power = 0x2D := if_pos hneg
      rw [hsign, if_pos rfl]
      omega
    · have hsign : powerSign power = 0x2B := if_neg hneg
      rw [hsign, if_neg (by decide), if_pos rfl]
      omega

/-- A literal without a sign, and the number that it denotes. -/
structure Spells (s : Text) (q : ℚ) : Prop where
  literal : numberLiteral s = true
  unsigned : s.head? ≠ some 0x2D
  value : literalValue s = q

theorem spells_literalText (hne : whole ≠ []) (hwhole : ∀ u ∈ whole, isDigit u = true)
    (hhead : whole.head? = some 0x30 → whole.length = 1) (hplaces : ∀ u ∈ places, isDigit u = true) (power : ℤ) :
    Spells (literalText whole places power) (numeralValue (whole ++ places) * 10 ^ (power - places.length)) := by
  obtain ⟨rest, hrest⟩ : ∃ rest, rest = (if places = [] then [] else 0x2E :: places) ++ powerText power := ⟨_, rfl⟩
  have hpoint : (powerText power).head? ≠ some 0x2E := by
    intro heq
    exact absurd (powerText_head power _ heq) (by decide)
  have hstops : Stops rest := by
    rw [hrest]
    split_ifs
    · exact powerText_stops power
    · intro u hu
      rw [← Option.some_inj.mp hu]
      decide
  have hunsigned : (literalText whole places power).head? ≠ some 0x2D := by
    obtain ⟨u, whole, rfl⟩ := List.exists_cons_of_ne_nil hne
    intro heq
    have hdigit := hwhole u List.mem_cons_self
    rw [Option.some_inj.mp heq] at hdigit
    exact absurd hdigit (by decide)
  have htake : (literalText whole places power).takeWhile isDigit = whole := by
    rw [literalText, ← hrest, takeWhile_digits hwhole hstops]
  have hdrop : (literalText whole places power).dropWhile isDigit = rest := by
    rw [literalText, ← hrest, dropWhile_digits hwhole hstops]
  have hpart : fraction rest = true := by
    rw [hrest, fraction]
    split_ifs with hnil h h
    · exact absurd h hpoint
    · exact exponent_powerText power
    · rw [List.cons_append, List.tail_cons, takeWhile_digits hplaces (powerText_stops power),
        dropWhile_digits hplaces (powerText_stops power), exponent_powerText]
      cases places with
      | nil => exact absurd rfl hnil
      | cons u places => rfl
    · exact absurd rfl h
  constructor
  · rw [numberLiteral, if_neg hunsigned]
    simp only [htake, hdrop, hpart, Bool.and_true]
    rw [Bool.and_eq_true, Bool.not_eq_true', List.isEmpty_eq_false_iff, Bool.or_eq_true, decide_eq_true_eq, beq_iff_eq]
    exact ⟨hne, or_iff_not_imp_left.mpr fun h => hhead (not_not.mp h)⟩
  · exact hunsigned
  · rw [literalValue]
    simp only [htake, hdrop]
    by_cases hnil : places = []
    · rw [if_pos hnil, List.nil_append] at hrest
      rw [hrest, if_neg hpoint, if_neg hpoint, powerValue_powerText, hnil]
    · rw [if_neg hnil] at hrest
      rw [hrest, List.cons_append, List.head?_cons, if_pos rfl, if_pos rfl, List.tail_cons,
        takeWhile_digits hplaces (powerText_stops power), dropWhile_digits hplaces (powerText_stops power),
        powerValue_powerText]

theorem zeros_digits (k : ℕ) : ∀ u ∈ List.replicate k (0x30 : UInt16), isDigit u = true := by
  intro u hu
  rw [List.eq_of_mem_replicate hu]
  decide

theorem spells_split {k : ℕ} (hk : 0 < k) (hle : k ≤ s.length) (hdigits : ∀ u ∈ s, isDigit u = true)
    (hhead : s.head? ≠ some 0x30) (power : ℤ) :
    Spells (literalText (s.take k) (s.drop k) power) (numeralValue s * 10 ^ (power + k - s.length)) := by
  have hne : s.take k ≠ [] := by
    rw [← List.length_pos_iff, List.length_take]
    omega
  have hfirst : (s.take k).head? ≠ some 0x30 := by rwa [List.head?_take, if_neg hk.ne']
  have hfrom : ∀ u ∈ s.take k, isDigit u = true := fun u hu => hdigits u (List.mem_of_mem_take hu)
  have hrest : ∀ u ∈ s.drop k, isDigit u = true := fun u hu => hdigits u (List.mem_of_mem_drop hu)
  have hspells := spells_literalText hne hfrom (fun h => absurd h hfirst) hrest power
  have hpower : power - (s.drop k).length = power + k - s.length := by
    rw [List.length_drop]
    omega
  rwa [List.take_append_drop, hpower] at hspells

theorem spells_placed (hne : s ≠ []) (hdigits : ∀ u ∈ s, isDigit u = true) (hhead : s.head? ≠ some 0x30) (n : ℤ) :
    Spells (placed s n) (numeralValue s * 10 ^ (n - s.length)) := by
  have hlength : 0 < s.length := List.length_pos_iff.mpr hne
  rw [placed]
  split_ifs with hwhole hsplit hsmall
  · obtain ⟨k, hk⟩ : ∃ k : ℕ, n - s.length = k := ⟨(n - s.length).toNat, by omega⟩
    have hzeros : ∀ u ∈ s ++ List.replicate k 0x30, isDigit u = true := by
      intro u hu
      exact (List.mem_append.mp hu).elim (hdigits u) (zeros_digits k u)
    have hfirst : (s ++ List.replicate k 0x30).head? ≠ some 0x30 := by
      rwa [List.head?_append_of_ne_nil _ hne]
    have hspells := spells_literalText (List.append_ne_nil_of_left_ne_nil hne _) hzeros (fun h => absurd h hfirst)
      (fun u hu => absurd hu List.not_mem_nil) 0
    rw [List.append_nil, numeralValue_append, numeralValue_zeros, List.length_replicate] at hspells
    rw [hk, Int.toNat_natCast]
    simpa using hspells
  · have hspells := spells_split (by omega : 0 < n.toNat) (by omega) hdigits hhead 0
    rwa [zero_add, Int.toNat_of_nonneg (by omega)] at hspells
  · have hzeros : ∀ u ∈ List.replicate (-n).toNat 0x30 ++ s, isDigit u = true := by
      intro u hu
      exact (List.mem_append.mp hu).elim (zeros_digits _ u) (hdigits u)
    have hspells := spells_literalText (List.cons_ne_nil 0x30 []) (zeros_digits 1) (fun _ => rfl) hzeros 0
    have hvalue : numeralValue ([0x30] ++ (List.replicate (-n).toNat 0x30 ++ s)) = numeralValue s := by
      rw [numeralValue_append, numeralValue_append, numeralValue_zeros]
      simp [numeralValue, unitValue]
    have hpower : (0 : ℤ) - (List.replicate (-n).toNat (0x30 : UInt16) ++ s).length = n - s.length := by
      rw [List.length_append, List.length_replicate]
      omega
    rwa [hvalue, hpower] at hspells
  · have hspells := spells_split one_pos (by omega) hdigits hhead (n - 1)
    rwa [Nat.cast_one, sub_add_cancel] at hspells

theorem exists_trimmed (s : Text) : ∃ k, s = s.rdropWhile (· == 0x30) ++ List.replicate k 0x30 := by
  refine ⟨(s.rtakeWhile (· == 0x30)).length, ?_⟩
  have hzeros : s.rtakeWhile (· == 0x30) = List.replicate (s.rtakeWhile (· == 0x30)).length 0x30 := by
    apply List.eq_replicate_of_mem
    intro u hu
    have hzero := List.mem_rtakeWhile_imp hu
    rwa [beq_iff_eq] at hzero
  rw [← hzeros, List.rdropWhile_append_rtakeWhile]

theorem spells_trimmed (hne : s ≠ []) (hdigits : ∀ u ∈ s, isDigit u = true) (hhead : s.head? ≠ some 0x30) (power : ℤ) :
    Spells (placed (s.rdropWhile (· == 0x30)) (power + s.length)) (numeralValue s * 10 ^ power) := by
  obtain ⟨k, hk⟩ := exists_trimmed s
  have hkept : s.rdropWhile (· == 0x30) ≠ [] := by
    intro hnil
    rw [List.rdropWhile_eq_nil_iff] at hnil
    obtain ⟨u, rest, rfl⟩ := List.exists_cons_of_ne_nil hne
    have hzero := hnil u List.mem_cons_self
    rw [beq_iff_eq] at hzero
    exact hhead (by rw [hzero, List.head?_cons])
  generalize s.rdropWhile (· == 0x30) = kept at hk hkept ⊢
  subst hk
  rw [List.head?_append_of_ne_nil _ hkept] at hhead
  have hspells := spells_placed hkept (fun u hu => hdigits u (List.mem_append_left _ hu)) hhead
    (power + (kept ++ List.replicate k 0x30).length)
  have hvalue : (numeralValue kept : ℚ) * 10 ^ (power + (kept ++ List.replicate k 0x30).length - kept.length) =
      numeralValue (kept ++ List.replicate k 0x30) * 10 ^ power := by
    have hpower : power + ((kept ++ List.replicate k 0x30).length : ℤ) - kept.length = k + power := by
      rw [List.length_append, List.length_replicate]
      push_cast
      ring
    rw [hpower, zpow_add₀ (by norm_num), zpow_natCast, numeralValue_append, numeralValue_zeros, List.length_replicate]
    push_cast
    ring
  rwa [hvalue] at hspells

theorem spells_magnitudeText {q : ℚ} (hq : binary64 q = q) (hpos : 0 < q) :
    Spells (magnitudeText q) (shortest q).value := by
  obtain ⟨u, rest, hnumeral, hu⟩ := numeral_head (shortest_digits_pos hq hpos)
  have hne : numeral (shortest q).digits ≠ [] := by
    rw [hnumeral]
    exact List.cons_ne_nil u rest
  have hhead : (numeral (shortest q).digits).head? ≠ some 0x30 := by
    rw [hnumeral]
    exact fun h => hu (Option.some_inj.mp h)
  have hspells := spells_trimmed hne (numeral_digits _) hhead (shortest q).power
  rwa [numeralValue_numeral] at hspells

end Literals

section Numbers

variable {q : ℚ} {s : Text} {x : Finite}

theorem ofMagnitude_finite (negative : Bool) (hq : 0 ≤ q) (h : binary64 q = x.value) :
    ofMagnitude negative q hq = .finite negative x := by
  obtain ⟨value, nonneg, bounded, double⟩ := x
  subst h
  rw [ofMagnitude, dif_pos bounded]

theorem spells_zero : Spells [0x30] 0 := by
  have hspells := spells_literalText (List.cons_ne_nil 0x30 []) (zeros_digits 1) (fun _ => rfl)
    (fun u hu => absurd hu List.not_mem_nil) 0
  have hvalue : numeralValue [0x30] = 0 := numeralValue_zeros 1
  rwa [List.append_nil, hvalue, Nat.cast_zero, zero_mul] at hspells

theorem ofLiteral_of_spells (h : Spells s q) (hq : binary64 q = x.value) : ofLiteral s = .finite false x := by
  have hvalue : binary64 (literalValue s) = x.value := by rw [h.value, hq]
  rw [ofLiteral, if_neg h.unsigned, ofMagnitude_finite false _ hvalue]

theorem ofLiteral_minus (h : Spells s q) (hq : binary64 q = x.value) : ofLiteral (0x2D :: s) = .finite true x := by
  have hvalue : binary64 (literalValue s) = x.value := by rw [h.value, hq]
  rw [ofLiteral, List.head?_cons, if_pos rfl]
  exact ofMagnitude_finite true _ hvalue

theorem numberLiteral_minus (h : Spells s q) : numberLiteral (0x2D :: s) = true := by
  have hliteral := h.literal
  rw [numberLiteral, if_neg h.unsigned] at hliteral
  rw [numberLiteral, List.head?_cons, if_pos rfl, List.tail_cons]
  exact hliteral

/-- What a number prints is a literal, and that denotes the number again, but for the sign of zero. -/
theorem ecmaScript_documented : ecmaScript.Documented := by
  have hcases : ∀ n s, toText n = some s → numberLiteral s = true ∧ toText (ofLiteral s) = some s := by
    intro n s h
    cases n with
    | infinite negative => cases h
    | finite negative x =>
      have htext := h
      rw [toText] at h
      split_ifs at h with hzero hnegative
      · cases h
        rw [ofLiteral_of_spells (x := x) spells_zero (by rw [binary64_zero, hzero])]
        exact ⟨spells_zero.literal, by rw [toText, if_pos hzero]⟩
      all_goals
        have hpos : 0 < x.value := lt_of_le_of_ne x.nonneg (Ne.symm hzero)
        have hspells := spells_magnitudeText x.double hpos
        have hread := binary64_shortest x.double hpos
        cases h
      · rw [ofLiteral_minus hspells hread]
        subst hnegative
        exact ⟨numberLiteral_minus hspells, htext⟩
      · rw [ofLiteral_of_spells hspells hread]
        rw [Bool.not_eq_true] at hnegative
        subst hnegative
        exact ⟨hspells.literal, htext⟩
  exact ⟨fun n s h => (hcases n s h).1, fun n s h => (hcases n s h).2⟩

-- the double nearest to 10^23 lies below it
example : toText (ofLiteral (units "100000000000000000000000")) = some (units "1e+23") := by decide +kernel

end Numbers

end Cimp.Json
