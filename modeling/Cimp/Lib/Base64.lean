import Mathlib.Data.List.Basic
import Mathlib.Tactic.Common

namespace Cimp.Base64

def unitOf (n : ℕ) : UInt16 :=
  if n < 26 then UInt16.ofNat (0x41 + n)
  else if n < 52 then UInt16.ofNat (0x61 + (n - 26))
  else if n < 62 then UInt16.ofNat (0x30 + (n - 52))
  else if n = 62 then 0x2B
  else 0x2F

def sextets : List UInt8 → List ℕ
  | [] => []
  | [a] => [a.toNat / 4, a.toNat % 4 * 16]
  | [a, b] => [a.toNat / 4, a.toNat % 4 * 16 + b.toNat / 16, b.toNat % 16 * 4]
  | a :: b :: c :: rest =>
    a.toNat / 4 :: (a.toNat % 4 * 16 + b.toNat / 16) :: (b.toNat % 16 * 4 + c.toNat / 64) :: c.toNat % 64 :: sextets rest

def encode (bytes : List UInt8) : List UInt16 := (sextets bytes).map unitOf

def urlSafe (u : UInt16) : UInt16 := if u = 0x2B then 0x2D else if u = 0x2F then 0x5F else u

def encodeUrl (bytes : List UInt8) : List UInt16 := (encode bytes).map urlSafe

theorem sextets_lt (bytes : List UInt8) : ∀ n ∈ sextets bytes, n < 64 := by
  fun_induction sextets bytes with
  | case1 => simp
  | case2 a =>
    have ha := a.toNat_lt
    simp only [List.mem_cons, List.not_mem_nil, or_false, forall_eq_or_imp, forall_eq]
    omega
  | case3 a b =>
    have ha := a.toNat_lt
    have hb := b.toNat_lt
    simp only [List.mem_cons, List.not_mem_nil, or_false, forall_eq_or_imp, forall_eq]
    omega
  | case4 a b c rest ih =>
    have ha := a.toNat_lt
    have hb := b.toNat_lt
    have hc := c.toNat_lt
    simp only [List.mem_cons, forall_eq_or_imp]
    exact ⟨by omega, by omega, by omega, by omega, ih⟩

theorem urlSafe_plain : ∀ n < 64, urlSafe (unitOf n) ≠ 0x23 ∧ urlSafe (unitOf n) ≠ 0x26 := by decide

theorem encodeUrl_plain (bytes : List UInt8) : ∀ u ∈ encodeUrl bytes, u ≠ 0x23 ∧ u ≠ 0x26 := by
  intro u hu
  rw [encodeUrl, encode, List.map_map] at hu
  obtain ⟨n, hn, rfl⟩ := List.mem_map.mp hu
  exact urlSafe_plain n (sextets_lt bytes n hn)

end Cimp.Base64
