import Mathlib.Data.List.Basic
import Mathlib.Tactic.Common

namespace Cimp.Utf16

def High (u : UInt16) : Prop := 0xD800 ≤ u.toNat ∧ u.toNat < 0xDC00

def Low (u : UInt16) : Prop := 0xDC00 ≤ u.toNat ∧ u.toNat < 0xE000

instance (u : UInt16) : Decidable (High u) := inferInstanceAs (Decidable (_ ∧ _))

instance (u : UInt16) : Decidable (Low u) := inferInstanceAs (Decidable (_ ∧ _))

def encodeChar (c : Char) : List UInt16 :=
  if c.toNat < 0x10000 then [UInt16.ofNat c.toNat]
  else [UInt16.ofNat (0xD800 + (c.toNat - 0x10000) / 0x400), UInt16.ofNat (0xDC00 + (c.toNat - 0x10000) % 0x400)]

def encode (cs : List Char) : List UInt16 := cs.flatMap encodeChar

def units (s : String) : List UInt16 := encode s.toList

def single (u : UInt16) : Char := Char.ofNat u.toNat

def pair (u v : UInt16) : Char := Char.ofNat (0x10000 + (u.toNat - 0xD800) * 0x400 + (v.toNat - 0xDC00))

/-- `none` where a surrogate is not part of a pair. -/
def decode : List UInt16 → Option (List Char)
  | [] => some []
  | u :: us =>
    if High u then
      match us with
      | [] => none
      | v :: us => if Low v then (decode us).map (pair u v :: ·) else none
    else if Low u then none
    else (decode us).map (single u :: ·)

/-- The length in UTF-8, where an unpaired surrogate becomes U+FFFD. -/
def byteLength : List UInt16 → ℕ
  | [] => 0
  | u :: us =>
    if High u then
      match us with
      | [] => 3
      | v :: rest => if Low v then 4 + byteLength rest else 3 + byteLength (v :: rest)
    else if u < 0x80 then 1 + byteLength us
    else if u < 0x800 then 2 + byteLength us
    else 3 + byteLength us

/-- No surrogate of the text is unpaired. -/
def WellFormed (us : List UInt16) : Prop := ∃ cs, encode cs = us

variable {c : Char} {cs : List Char} {u v : UInt16} {us : List UInt16}

theorem toNat_char (c : Char) : c.toNat < 0xD800 ∨ 0xDFFF < c.toNat ∧ c.toNat < 0x110000 := c.valid

theorem toNat_ofNat {n : ℕ} (h : n < 0x10000) : (UInt16.ofNat n).toNat = n := by
  rw [UInt16.toNat_ofNat']
  exact Nat.mod_eq_of_lt h

theorem toNat_charOfNat {n : ℕ} (h : n < 0xD800 ∨ 0xDFFF < n ∧ n < 0x110000) : (Char.ofNat n).toNat = n := by
  rw [Char.ofNat, dif_pos h]
  rfl

theorem decode_single (hhigh : ¬ High u) (hlow : ¬ Low u) (us : List UInt16) :
    decode (u :: us) = (decode us).map (single u :: ·) := by
  rw [decode.eq_def]
  simp only [if_neg hhigh, if_neg hlow]

theorem decode_pair (hu : High u) (hv : Low v) (us : List UInt16) :
    decode (u :: v :: us) = (decode us).map (pair u v :: ·) := by
  rw [decode.eq_def]
  simp only [if_pos hu, if_pos hv]

theorem encodeChar_of_lt (h : c.toNat < 0x10000) : encodeChar c = [UInt16.ofNat c.toNat] := if_pos h

theorem encodeChar_of_le (h : 0x10000 ≤ c.toNat) : ∃ u v, encodeChar c = [u, v] ∧
    u.toNat = 0xD800 + (c.toNat - 0x10000) / 0x400 ∧ v.toNat = 0xDC00 + (c.toNat - 0x10000) % 0x400 := by
  have hc := toNat_char c
  refine ⟨_, _, if_neg (by omega), toNat_ofNat (by omega), toNat_ofNat (by omega)⟩

theorem decode_encodeChar (c : Char) (us : List UInt16) :
    decode (encodeChar c ++ us) = (decode us).map (c :: ·) := by
  have hc := toNat_char c
  by_cases h : c.toNat < 0x10000
  · have hu : (UInt16.ofNat c.toNat).toNat = c.toNat := toNat_ofNat h
    have hhigh : ¬ High (UInt16.ofNat c.toNat) := by
      rw [High]
      omega
    have hlow : ¬ Low (UInt16.ofNat c.toNat) := by
      rw [Low]
      omega
    rw [encodeChar_of_lt h, List.singleton_append, decode_single hhigh hlow, single, hu, Char.ofNat_toNat]
  · obtain ⟨u, v, heq, hu, hv⟩ := encodeChar_of_le (c := c) (by omega)
    have hscalar : 0x10000 + (u.toNat - 0xD800) * 0x400 + (v.toNat - 0xDC00) = c.toNat := by omega
    have hhigh : High u := by
      rw [High]
      omega
    have hlow : Low v := by
      rw [Low]
      omega
    rw [heq, List.cons_append, List.singleton_append, decode_pair hhigh hlow, pair, hscalar, Char.ofNat_toNat]

theorem decode_encode (cs : List Char) : decode (encode cs) = some cs := by
  induction cs with
  | nil => rfl
  | cons c cs ih => rw [encode, List.flatMap_cons, decode_encodeChar, ← encode, ih, Option.map_some]

theorem encodeChar_single (hhigh : ¬ High u) (hlow : ¬ Low u) : encodeChar (single u) = [u] := by
  have hu := u.toNat_lt
  rw [High] at hhigh
  rw [Low] at hlow
  have hchar : (single u).toNat = u.toNat := toNat_charOfNat (by omega)
  rw [encodeChar_of_lt (by omega), hchar, UInt16.ofNat_toNat]

theorem encodeChar_pair (hu : High u) (hv : Low v) : encodeChar (pair u v) = [u, v] := by
  rw [High] at hu
  rw [Low] at hv
  have hchar : (pair u v).toNat = 0x10000 + (u.toNat - 0xD800) * 0x400 + (v.toNat - 0xDC00) :=
    toNat_charOfNat (by omega)
  obtain ⟨u', v', heq, hu', hv'⟩ := encodeChar_of_le (c := pair u v) (by omega)
  have hhigh : u' = u := UInt16.toNat.inj (by omega)
  have hlow : v' = v := UInt16.toNat.inj (by omega)
  rw [heq, hhigh, hlow]

theorem encode_of_decode (h : decode us = some cs) : encode cs = us := by
  fun_induction decode us generalizing cs with
  | case1 =>
    cases h
    rfl
  | case2 u hu => cases h
  | case3 u hu v us hv ih =>
    obtain ⟨rest, hrest, rfl⟩ := Option.map_eq_some_iff.mp h
    rw [encode, List.flatMap_cons, encodeChar_pair hu hv, ← encode, ih hrest]
    rfl
  | case4 u hu v us hv => cases h
  | case5 u us hu hv => cases h
  | case6 u us hu hv ih =>
    obtain ⟨rest, hrest, rfl⟩ := Option.map_eq_some_iff.mp h
    rw [encode, List.flatMap_cons, encodeChar_single hu hv, ← encode, ih hrest]
    rfl

theorem wellFormed_iff : WellFormed us ↔ (decode us).isSome = true := by
  constructor
  · rintro ⟨cs, rfl⟩
    rw [decode_encode]
    rfl
  · intro h
    obtain ⟨cs, hcs⟩ := Option.isSome_iff_exists.mp h
    exact ⟨cs, encode_of_decode hcs⟩

instance (us : List UInt16) : Decidable (WellFormed us) := decidable_of_iff _ wellFormed_iff.symm

theorem wellFormed_append (h : WellFormed us) {vs : List UInt16} (hvs : WellFormed vs) : WellFormed (us ++ vs) := by
  obtain ⟨cs, rfl⟩ := h
  obtain ⟨ds, rfl⟩ := hvs
  exact ⟨cs ++ ds, List.flatMap_append⟩

theorem wellFormed_snoc (hhigh : ¬ High u) (hlow : ¬ Low u) : WellFormed (us ++ [u]) ↔ WellFormed us := by
  constructor
  · rw [wellFormed_iff, wellFormed_iff]
    fun_induction decode us with
    | case1 => exact fun _ => rfl
    | case2 v hv => simp [decode, hv, hlow]
    | case3 v hv w us hw ih =>
      rw [List.cons_append, List.cons_append, decode_pair hv hw]
      simpa using ih
    | case4 v hv w us hw => simp [decode, hv, hw]
    | case5 v us hv hw =>
      rw [List.cons_append, decode.eq_def]
      simp [hv, hw]
    | case6 v us hv hw ih =>
      rw [List.cons_append, decode_single hv hw]
      simpa using ih
  · exact fun h => wellFormed_append h ⟨[single u], by rw [encode, List.flatMap_singleton, encodeChar_single hhigh hlow]⟩

end Cimp.Utf16
