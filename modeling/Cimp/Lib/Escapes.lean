import Mathlib.Data.List.Basic
import Mathlib.Tactic.Common

namespace Cimp.Escapes

/-- `letter` is the digit for ten, `A` or `a`. -/
def hexDigit (letter : UInt16) (n : ℕ) : UInt16 := if n < 10 then 0x30 + UInt16.ofNat n else letter + UInt16.ofNat (n - 10)

def hexValue (u : UInt16) : Option ℕ :=
  if 0x30 ≤ u ∧ u ≤ 0x39 then some (u.toNat - 0x30)
  else if 0x41 ≤ u ∧ u ≤ 0x46 then some (u.toNat - 0x41 + 10)
  else if 0x61 ≤ u ∧ u ≤ 0x66 then some (u.toNat - 0x61 + 10)
  else none

def percent : UInt16 := 0x25

def triplet (b : UInt8) : List UInt16 := [percent, hexDigit 0x41 (b.toNat / 16), hexDigit 0x41 (b.toNat % 16)]

/-- A triplet is the byte it names and a unit of ASCII its own byte; nothing else is read. -/
def percentDecode : List UInt16 → Option (List UInt8)
  | [] => some []
  | u :: us =>
    if u = percent then
      match us with
      | x :: y :: us => do
        let high ← hexValue x
        let low ← hexValue y
        let bytes ← percentDecode us
        some (UInt8.ofNat (high * 16 + low) :: bytes)
      | _ => none
    else if u < 0x80 then (percentDecode us).map (UInt8.ofNat u.toNat :: ·)
    else none

/-- Only triplets and `allowed` units. -/
def Escaped (allowed : UInt16 → Prop) : List UInt16 → Prop
  | [] => True
  | u :: us =>
    if u = percent then
      match us with
      | x :: y :: us => (hexValue x).isSome = true ∧ (hexValue y).isSome = true ∧ Escaped allowed us
      | _ => False
    else allowed u ∧ Escaped allowed us

variable {allowed : UInt16 → Prop} {u : UInt16} {us : List UInt16} {b : UInt8} {bytes : List UInt8}

theorem hexValue_hexDigit_upper {n : ℕ} (h : n < 16) : hexValue (hexDigit 0x41 n) = some n := by
  revert n
  decide

theorem hexValue_hexDigit_lower {n : ℕ} (h : n < 16) : hexValue (hexDigit 0x61 n) = some n := by
  revert n
  decide

theorem high_lt (b : UInt8) : b.toNat / 16 < 16 := by
  have hb := b.toNat_lt
  omega

theorem low_lt (b : UInt8) : b.toNat % 16 < 16 := Nat.mod_lt _ (by omega)

theorem percentDecode_triplet (b : UInt8) (us : List UInt16) :
    percentDecode (triplet b ++ us) = (percentDecode us).map (b :: ·) := by
  have hbyte : UInt8.ofNat (b.toNat / 16 * 16 + b.toNat % 16) = b := by
    rw [Nat.div_add_mod', UInt8.ofNat_toNat]
  rw [triplet, List.cons_append, List.cons_append, List.cons_append, List.nil_append, percentDecode, if_pos rfl,
    hexValue_hexDigit_upper (high_lt b), hexValue_hexDigit_upper (low_lt b)]
  simp only [Option.bind_eq_bind, Option.bind_some, hbyte]
  rw [Option.map_eq_bind]
  rfl

theorem percentDecode_cons (hpercent : u ≠ percent) (hascii : u < 0x80) (us : List UInt16) :
    percentDecode (u :: us) = (percentDecode us).map (UInt8.ofNat u.toNat :: ·) := by
  rw [percentDecode.eq_def]
  simp only [if_neg hpercent, if_pos hascii]

theorem percentDecode_triplets (bytes : List UInt8) (us : List UInt16) :
    percentDecode (bytes.flatMap triplet ++ us) = (percentDecode us).map (bytes ++ ·) := by
  induction bytes with
  | nil => simp
  | cons b bytes ih =>
    rw [List.flatMap_cons, List.append_assoc, percentDecode_triplet, ih, Option.map_map]
    rfl

theorem escaped_triplet (b : UInt8) : Escaped allowed (triplet b ++ us) ↔ Escaped allowed us := by
  rw [triplet, List.cons_append, List.cons_append, List.cons_append, List.nil_append, Escaped, if_pos rfl,
    hexValue_hexDigit_upper (high_lt b), hexValue_hexDigit_upper (low_lt b)]
  simp

theorem escaped_cons (hpercent : u ≠ percent) : Escaped allowed (u :: us) ↔ allowed u ∧ Escaped allowed us := by
  rw [Escaped.eq_def]
  simp only [if_neg hpercent]

theorem escaped_triplets (bytes : List UInt8) : Escaped allowed (bytes.flatMap triplet ++ us) ↔ Escaped allowed us := by
  induction bytes with
  | nil => rw [List.flatMap_nil, List.nil_append]
  | cons b bytes ih => rw [List.flatMap_cons, List.append_assoc, escaped_triplet, ih]

end Cimp.Escapes
