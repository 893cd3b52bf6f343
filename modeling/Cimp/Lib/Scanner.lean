import Mathlib.Data.List.Basic
import Mathlib.Tactic.Common

namespace Cimp.Scanner

universe u v

variable {α : Type u} {τ : Type v}

/-- The lexeme a text starts with, if any, and what is left of the text. -/
structure Rule (α : Type u) (τ : Type v) where
  take : List α → Option (τ × List α)
  shorter : ∀ {s t rest}, take s = some (t, rest) → rest.length < s.length

def scanFor (r : Rule α τ) : ℕ → List α → List τ
  | 0, _ => []
  | _ + 1, [] => []
  | n + 1, c :: s =>
    match r.take (c :: s) with
    | some (t, rest) => t :: scanFor r n rest
    | none => scanFor r n s

/-- A global search: where no lexeme starts, it goes on one character further. -/
def scan (r : Rule α τ) (s : List α) : List τ := scanFor r s.length s

/-- Lexing proper: every character is blank or belongs to a lexeme. -/
inductive Lexes (r : Rule α τ) (blank : α → Prop) : List α → List τ → Prop
  | nil : Lexes r blank [] []
  | skip {c : α} {s : List α} {ts : List τ} : blank c → Lexes r blank s ts → Lexes r blank (c :: s) ts
  | lexeme {s rest : List α} {t : τ} {ts : List τ} :
      r.take s = some (t, rest) → Lexes r blank rest ts → Lexes r blank s (t :: ts)

variable {r : Rule α τ} {blank : α → Prop} {s rest : List α} {c : α} {t : τ} {ts : List τ}

theorem Rule.take_nil (r : Rule α τ) : r.take [] = none := by
  cases h : r.take [] with
  | none => rfl
  | some p => exact absurd (r.shorter h) (Nat.not_lt_zero _)

theorem Rule.induct (r : Rule α τ) {P : List α → Prop} (nil : P [])
    (lexeme : ∀ s t rest, r.take s = some (t, rest) → P rest → P s)
    (skip : ∀ c s, r.take (c :: s) = none → P s → P (c :: s)) (s : List α) : P s := by
  induction hn : s.length using Nat.strongRecOn generalizing s with
  | _ n ih =>
    subst hn
    cases s with
    | nil => exact nil
    | cons c s =>
      cases h : r.take (c :: s) with
      | none => exact skip c s h (ih s.length (Nat.lt_succ_self _) s rfl)
      | some p => exact lexeme _ p.1 p.2 h (ih p.2.length (r.shorter h) p.2 rfl)

theorem scanFor_eq {n m : ℕ} (hn : s.length ≤ n) (hm : s.length ≤ m) : scanFor r n s = scanFor r m s := by
  induction n generalizing s m with
  | zero =>
    obtain rfl := List.length_eq_zero_iff.mp (Nat.le_zero.mp hn)
    cases m <;> rfl
  | succ n ih =>
    cases s with
    | nil => cases m <;> rfl
    | cons c s =>
      cases m with
      | zero => cases hm
      | succ m =>
        rw [List.length_cons] at hn hm
        rw [scanFor, scanFor]
        cases h : r.take (c :: s) with
        | none => exact ih (Nat.le_of_succ_le_succ hn) (Nat.le_of_succ_le_succ hm)
        | some p =>
          have hlt := r.shorter h
          rw [List.length_cons] at hlt
          exact congrArg (p.1 :: ·) (ih (by omega) (by omega))

theorem scanFor_of_le {n : ℕ} (h : s.length ≤ n) : scanFor r n s = scan r s := scanFor_eq h (Nat.le_refl _)

theorem scan_of_take (h : r.take s = some (t, rest)) : scan r s = t :: scan r rest := by
  cases s with
  | nil =>
    rw [r.take_nil] at h
    cases h
  | cons c s =>
    have hlt := r.shorter h
    rw [scan, List.length_cons, scanFor, h]
    simp only
    rw [scanFor_of_le (Nat.lt_succ_iff.mp hlt)]

theorem scan_of_not_take (h : r.take (c :: s) = none) : scan r (c :: s) = scan r s := by
  rw [scan, List.length_cons, scanFor, h]
  rfl

theorem Lexes.scan_eq (hblank : ∀ c s, blank c → r.take (c :: s) = none) (h : Lexes r blank s ts) :
    scan r s = ts := by
  induction h with
  | nil => rfl
  | skip hc hs ih => rw [scan_of_not_take (hblank _ _ hc), ih]
  | lexeme ht hs ih => rw [scan_of_take ht, ih]

end Cimp.Scanner
