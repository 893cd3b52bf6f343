import Cimp.Lib.Utf16

namespace Cimp.Utf8

open Utf16

/-- A sequence that is under way: how many bytes are still to come, the code point so far, and where the next byte has
to lie. -/
structure Pending where
  needed : ℕ
  point : ℕ
  lower : ℕ
  upper : ℕ

def replacement : Char := '\uFFFD'

def lead (b : ℕ) : Char ⊕ Pending :=
  if b ≤ 0x7F then .inl (Char.ofNat b)
  else if 0xC2 ≤ b ∧ b ≤ 0xDF then .inr ⟨1, b - 0xC0, 0x80, 0xBF⟩
  else if 0xE0 ≤ b ∧ b ≤ 0xEF then
    .inr ⟨2, b - 0xE0, if b = 0xE0 then 0xA0 else 0x80, if b = 0xED then 0x9F else 0xBF⟩
  else if 0xF0 ≤ b ∧ b ≤ 0xF4 then
    .inr ⟨3, b - 0xF0, if b = 0xF0 then 0x90 else 0x80, if b = 0xF4 then 0x8F else 0xBF⟩
  else .inl replacement

def decodeFrom : Option Pending → List UInt8 → List Char
  | none, [] => []
  | some _, [] => [replacement]
  | none, b :: bs =>
    match lead b.toNat with
    | .inl c => c :: decodeFrom none bs
    | .inr p => decodeFrom (some p) bs
  | some p, b :: bs =>
    if p.lower ≤ b.toNat ∧ b.toNat ≤ p.upper then
      let point := p.point * 64 + (b.toNat - 0x80)
      if p.needed = 1 then Char.ofNat point :: decodeFrom none bs
      else decodeFrom (some ⟨p.needed - 1, point, 0x80, 0xBF⟩) bs
    else
      match lead b.toNat with
      | .inl c => replacement :: c :: decodeFrom none bs
      | .inr q => replacement :: decodeFrom (some q) bs

/-- `TextEncoder.encode` of a text without unpaired surrogates. -/
def encodeChars (cs : List Char) : List UInt8 := cs.flatMap String.utf8EncodeChar

theorem toNat_ofNat {n : ℕ} (h : n < 256) : (UInt8.ofNat n).toNat = n := by
  rw [UInt8.toNat_ofNat']
  exact Nat.mod_eq_of_lt h

end Cimp.Utf8
