import Mathlib.Algebra.Group.Nat.Defs
import Mathlib.Data.List.Basic
import Mathlib.Tactic.Common

namespace Cimp.Hosts

def octet (a : UInt32) (i : ℕ) : ℕ := a.toNat / 2 ^ (8 * (3 - i)) % 256

def decimal (n : ℕ) : List Char := Nat.toDigits 10 n

def dotted (a : UInt32) : List Char :=
  decimal (octet a 0) ++ '.' :: (decimal (octet a 1) ++ '.' :: (decimal (octet a 2) ++ '.' :: decimal (octet a 3)))

/-- The addresses that share the first `length` bits with `base`. -/
structure Block where
  base : UInt32
  length : ℕ

def Block.Contains (b : Block) (a : UInt32) : Prop :=
  a.toNat / 2 ^ (32 - b.length) = b.base.toNat / 2 ^ (32 - b.length)

instance (b : Block) (a : UInt32) : Decidable (b.Contains a) := inferInstanceAs (Decidable (_ = _))

def address (a b c d : ℕ) : UInt32 := UInt32.ofNat (((a * 256 + b) * 256 + c) * 256 + d)

/-- A pattern lists the characters each place may hold. -/
abbrev Pattern := List (List Char)

def literal (s : String) : Pattern := s.toList.map fun c => [c]

def fits : Pattern → List Char → Bool
  | [], [] => true
  | cs :: p, c :: s => cs.contains c && fits p s
  | _, _ => false

def starts : Pattern → List Char → Bool
  | [], _ => true
  | cs :: p, c :: s => cs.contains c && starts p s
  | _ :: _, [] => false

variable {p q : Pattern} {x y s t : List Char} {a : UInt32}

theorem starts_label (hp : ∀ cs ∈ p, '.' ∉ cs) (hx : '.' ∉ x) :
    starts (p ++ ['.'] :: q) (x ++ '.' :: t) = (fits p x && starts q t) := by
  induction p generalizing x with
  | nil =>
    cases x with
    | nil => simp [starts, fits]
    | cons c x =>
      have hc : ¬ c = '.' := fun h => hx (by simp [h])
      simp [starts, fits, hc]
  | cons cs p ih =>
    obtain ⟨hcs, hrest⟩ := List.forall_mem_cons.mp hp
    cases x with
    | nil => simp [starts, fits, hcs]
    | cons c x =>
      have hlater := ih hrest (fun h => hx (List.mem_cons_of_mem c h))
      rw [List.cons_append, List.cons_append, starts, hlater, fits, Bool.and_assoc]

theorem label_inj (hx : '.' ∉ x) (hy : '.' ∉ y) : x ++ '.' :: s = y ++ '.' :: t ↔ x = y ∧ s = t := by
  induction x generalizing y with
  | nil =>
    cases y with
    | nil => simp
    | cons c y =>
      have hc : ¬ '.' = c := fun h => hy (h ▸ List.mem_cons_self)
      simp [hc]
  | cons c x ih =>
    have hx' : '.' ∉ x := fun h => hx (List.mem_cons_of_mem c h)
    cases y with
    | nil =>
      have hc : ¬ c = '.' := fun h => hx (by simp [h])
      simp [hc]
    | cons d y =>
      have hy' : '.' ∉ y := fun h => hy (List.mem_cons_of_mem d h)
      simp [ih hx' hy', and_assoc]

theorem toNat_address {m n k l : ℕ} (hm : m < 256) (hn : n < 256) (hk : k < 256) (hl : l < 256) :
    (address m n k l).toNat = ((m * 256 + n) * 256 + k) * 256 + l := by
  rw [address, UInt32.toNat_ofNat', Nat.mod_eq_of_lt (by omega)]

theorem octet_lt (a : UInt32) (i : ℕ) : octet a i < 256 := Nat.mod_lt _ (by omega)

theorem decimal_inj {m n : ℕ} : decimal m = decimal n ↔ m = n := by
  constructor
  · intro h
    rw [← Nat.ofDigitChars_ten_toDigits (n := m), ← Nat.ofDigitChars_ten_toDigits (n := n)]
    exact congrArg (Nat.ofDigitChars 10 · 0) h
  · exact congrArg decimal

theorem isDigit_of_mem_decimal {c : Char} {n : ℕ} (h : c ∈ decimal n) : c.isDigit = true :=
  Nat.isDigit_of_mem_toDigits (by omega) (by omega) h

theorem dot_notMem (a : UInt32) (i : ℕ) : '.' ∉ decimal (octet a i) := fun h =>
  absurd (isDigit_of_mem_decimal h) (by decide)

theorem fits_literal (text : String) (x : List Char) : fits (literal text) x = (x == text.toList) := by
  rw [literal]
  induction text.toList generalizing x with
  | nil => cases x <;> rfl
  | cons c cs ih =>
    cases x with
    | nil => rfl
    | cons d x =>
      rw [List.map_cons, fits, ih, Bool.eq_iff_iff]
      simp

theorem fits_decimal {text : String} {m : ℕ} (h : text.toList = decimal m) (n : ℕ) :
    fits (literal text) (decimal n) = decide (n = m) := by
  rw [fits_literal, h, Bool.eq_iff_iff, beq_iff_eq, decide_eq_true_iff, decimal_inj]

theorem mem_dotted {c : Char} (h : c ∈ dotted a) : c.isDigit = true ∨ c = '.' := by
  have hdigit : ∀ i, c ∈ decimal (octet a i) → c.isDigit = true := fun _ => isDigit_of_mem_decimal
  simp only [dotted, List.mem_append, List.mem_cons] at h
  obtain h | h | h | h | h | h | h := h
  · exact .inl (hdigit 0 h)
  · exact .inr h
  · exact .inl (hdigit 1 h)
  · exact .inr h
  · exact .inl (hdigit 2 h)
  · exact .inr h
  · exact .inl (hdigit 3 h)

theorem decimal_zero {n : ℕ} : decimal n = ['0'] ↔ n = 0 := decimal_inj (n := 0)

theorem starts_dotted_first (hp : ∀ cs ∈ p, '.' ∉ cs) :
    starts (p ++ [['.']]) (dotted a) = fits p (decimal (octet a 0)) := by
  rw [dotted, starts_label hp (dot_notMem a 0), starts, Bool.and_true]

theorem starts_dotted_second (hp : ∀ cs ∈ p, '.' ∉ cs) (hq : ∀ cs ∈ q, '.' ∉ cs) :
    starts (p ++ ['.'] :: (q ++ [['.']])) (dotted a) =
      (fits p (decimal (octet a 0)) && fits q (decimal (octet a 1))) := by
  rw [dotted, starts_label hp (dot_notMem a 0), starts_label hq (dot_notMem a 1), starts, Bool.and_true]

theorem dotted_zero : dotted a = "0.0.0.0".toList ↔ a = 0 := by
  have hzero : "0.0.0.0".toList = ['0'] ++ '.' :: (['0'] ++ '.' :: (['0'] ++ '.' :: ['0'])) := rfl
  have hdot : '.' ∉ ['0'] := by decide
  rw [hzero, dotted, label_inj (dot_notMem a 0) hdot, label_inj (dot_notMem a 1) hdot, label_inj (dot_notMem a 2) hdot,
    decimal_zero, decimal_zero, decimal_zero, decimal_zero, ← UInt32.toNat_inj]
  have ha := a.toNat_lt
  have hnil : (0 : UInt32).toNat = 0 := rfl
  rw [hnil]
  simp only [octet, Nat.reduceSub, Nat.reduceMul, Nat.reducePow]
  omega

end Cimp.Hosts
