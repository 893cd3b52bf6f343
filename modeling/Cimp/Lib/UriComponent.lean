import Cimp.Lib.Escapes
import Cimp.Lib.Utf16

namespace Cimp.UriComponent

open Escapes Utf16

/-- The byte that a triplet in front names. -/
def readByte : List UInt16 → Option (UInt8 × List UInt16)
  | u :: x :: y :: us =>
    if u = percent then do
      let high ← hexValue x
      let low ← hexValue y
      some (UInt8.ofNat (high * 16 + low), us)
    else none
  | _ => none

def readBytes : ℕ → List UInt16 → Option (List UInt8 × List UInt16)
  | 0, us => some ([], us)
  | n + 1, us => do
    let (b, us) ← readByte us
    let (bytes, us) ← readBytes n us
    some (b :: bytes, us)

/-- From the leading ones of the first byte. -/
def sequenceLength (b : UInt8) : Option ℕ :=
  if b < 0x80 then some 1
  else if b < 0xc0 then none
  else if b < 0xe0 then some 2
  else if b < 0xf0 then some 3
  else if b < 0xf8 then some 4
  else none

def readChar (us : List UInt16) : Option (Char × List UInt16) := do
  let (b, _) ← readByte us
  let n ← sequenceLength b
  let (bytes, us) ← readBytes n us
  let c ← bytes.toByteArray.utf8DecodeChar? 0
  some (c, us)

def decodeFrom : ℕ → List UInt16 → Option (List UInt16)
  | _, [] => some []
  | 0, _ :: _ => none
  | n + 1, u :: us =>
    if u = percent then do
      let (c, us) ← readChar (u :: us)
      let units ← decodeFrom n us
      some (encodeChar c ++ units)
    else (decodeFrom n us).map (u :: ·)

/-- `none` where it throws. -/
def decodeURIComponent (us : List UInt16) : Option (List UInt16) := decodeFrom us.length us

def Decodes (us vs : List UInt16) : Prop := ∀ n, us.length ≤ n → decodeFrom n us = some vs

variable {b : UInt8} {c : Char} {u : UInt16} {us vs rest : List UInt16} {bytes : List UInt8} {n : ℕ}

theorem decodes_nil : Decodes [] [] := fun n _ => by
  cases n <;> rfl

theorem Decodes.decodeURIComponent (h : Decodes us vs) : decodeURIComponent us = some vs := h us.length (Nat.le_refl _)

theorem readByte_triplet (b : UInt8) (us : List UInt16) : readByte (triplet b ++ us) = some (b, us) := by
  have hbyte : UInt8.ofNat (b.toNat / 16 * 16 + b.toNat % 16) = b := by rw [Nat.div_add_mod', UInt8.ofNat_toNat]
  simp only [triplet, List.cons_append, List.nil_append, readByte, if_true, hexValue_hexDigit_upper (high_lt b),
    hexValue_hexDigit_upper (low_lt b), Option.bind_eq_bind, Option.bind_some, hbyte]

theorem readBytes_triplets (bytes : List UInt8) (us : List UInt16) :
    readBytes bytes.length (bytes.flatMap triplet ++ us) = some (bytes, us) := by
  induction bytes with
  | nil => rfl
  | cons b bytes ih =>
    simp only [List.flatMap_cons, List.append_assoc, List.length_cons, readBytes, readByte_triplet,
      Option.bind_eq_bind, Option.bind_some, ih]

theorem sequenceLength_ofNat (h : n < 256) : sequenceLength (UInt8.ofNat n) =
    if n < 0x80 then some 1
    else if n < 0xc0 then none
    else if n < 0xe0 then some 2
    else if n < 0xf0 then some 3
    else if n < 0xf8 then some 4
    else none := by
  have hn : (UInt8.ofNat n).toNat = n := by
    rw [UInt8.toNat_ofNat']
    exact Nat.mod_eq_of_lt h
  simp only [sequenceLength, UInt8.lt_iff_toNat_lt, hn]
  rfl

theorem sequenceLength_utf8 (c : Char) :
    ∃ b bytes, String.utf8EncodeChar c = b :: bytes ∧ sequenceLength b = some (bytes.length + 1) := by
  have hvalid := toNat_char c
  have hval : c.val.toNat = c.toNat := rfl
  simp only [String.utf8EncodeChar, hval]
  split
  · refine ⟨_, _, rfl, ?_⟩
    rw [sequenceLength_ofNat (by omega), if_pos (by omega)]
    rfl
  · split
    · refine ⟨_, _, rfl, ?_⟩
      rw [sequenceLength_ofNat (by omega), if_neg (by omega), if_neg (by omega), if_pos (by omega)]
      rfl
    · split
      · refine ⟨_, _, rfl, ?_⟩
        rw [sequenceLength_ofNat (by omega), if_neg (by omega), if_neg (by omega), if_neg (by omega),
          if_pos (by omega)]
        rfl
      · refine ⟨_, _, rfl, ?_⟩
        rw [sequenceLength_ofNat (by omega), if_neg (by omega), if_neg (by omega), if_neg (by omega),
          if_neg (by omega), if_pos (by omega)]
        rfl

theorem readChar_triplets (c : Char) (us : List UInt16) :
    readChar ((String.utf8EncodeChar c).flatMap triplet ++ us) = some (c, us) := by
  obtain ⟨b, bytes, hencoded, hlength⟩ := sequenceLength_utf8 c
  have hdecoded : (b :: bytes).toByteArray.utf8DecodeChar? 0 = some c := by
    have happend := ByteArray.utf8DecodeChar?_utf8EncodeChar_append (b := ByteArray.empty) (c := c)
    rwa [hencoded, ByteArray.append_empty] at happend
  have hfirst : readByte ((b :: bytes).flatMap triplet ++ us) = some (b, bytes.flatMap triplet ++ us) := by
    rw [List.flatMap_cons, List.append_assoc, readByte_triplet]
  have hbytes : readBytes (bytes.length + 1) ((b :: bytes).flatMap triplet ++ us) = some (b :: bytes, us) :=
    readBytes_triplets (b :: bytes) us
  simp only [hencoded, readChar, hfirst, hlength, hbytes, hdecoded, Option.bind_eq_bind, Option.bind_some]

theorem decodeFrom_unit (hu : u ≠ percent) (n : ℕ) (us : List UInt16) :
    decodeFrom (n + 1) (u :: us) = (decodeFrom n us).map (u :: ·) := if_neg hu

theorem decodeFrom_triplet (n : ℕ) (us : List UInt16) : decodeFrom (n + 1) (percent :: us) =
    (readChar (percent :: us)).bind fun r => (decodeFrom n r.2).map (encodeChar r.1 ++ ·) := by
  rw [decodeFrom, if_pos rfl]
  cases readChar (percent :: us) with
  | none => rfl
  | some r =>
    simp only [Option.bind_eq_bind, Option.bind_some]
    rw [Option.map_eq_bind]
    rfl

theorem Decodes.unit (h : Decodes us vs) (hu : u ≠ percent) : Decodes (u :: us) (u :: vs) := by
  intro n hn
  obtain ⟨n, rfl⟩ := Nat.exists_eq_add_of_lt (Nat.lt_of_lt_of_le (Nat.succ_pos _) hn)
  rw [List.length_cons] at hn
  rw [Nat.zero_add, decodeFrom_unit hu, h n (by omega), Option.map_some]

theorem Decodes.triplets (h : Decodes us vs) (c : Char) :
    Decodes ((String.utf8EncodeChar c).flatMap triplet ++ us) (encodeChar c ++ vs) := by
  intro n hn
  have hread := readChar_triplets c us
  obtain ⟨b, bytes, hencoded, -⟩ := sequenceLength_utf8 c
  obtain ⟨rest, hfront⟩ : ∃ rest, (String.utf8EncodeChar c).flatMap triplet ++ us = percent :: rest := by
    rw [hencoded]
    exact ⟨_, rfl⟩
  have hlonger : us.length < (percent :: rest).length := by
    rw [← hfront, hencoded, List.flatMap_cons, List.length_append, List.length_append, triplet]
    simp only [List.length_cons]
    omega
  rw [hfront] at hn hread ⊢
  obtain ⟨n, rfl⟩ := Nat.exists_eq_add_of_lt (Nat.lt_of_lt_of_le (Nat.succ_pos _) hn)
  rw [Nat.zero_add, decodeFrom_triplet, hread, Option.bind_some, h n (by omega), Option.map_some]

theorem length_encodeChar (c : Char) : (encodeChar c).length ≤ 2 := by
  unfold encodeChar
  split
  · exact Nat.le_succ 1
  · exact Nat.le_refl 2

theorem readByte_length (h : readByte us = some (b, rest)) : rest.length + 3 = us.length := by
  unfold readByte at h
  split at h
  · split at h
    · simp only [Option.bind_eq_bind, Option.bind_eq_some_iff, Option.some.injEq, Prod.mk.injEq] at h
      obtain ⟨_, -, _, -, -, rfl⟩ := h
      rfl
    · cases h
  · cases h

theorem readBytes_length (h : readBytes n us = some (bytes, rest)) : rest.length + 3 * n = us.length := by
  induction n generalizing us bytes rest with
  | zero =>
    cases h
    rfl
  | succ n ih =>
    simp only [readBytes, Option.bind_eq_bind, Option.bind_eq_some_iff, Option.some.injEq, Prod.mk.injEq] at h
    obtain ⟨⟨_, mid⟩, hfirst, ⟨_, last⟩, hrest, -, rfl⟩ := h
    have hmid := readByte_length hfirst
    have hend := ih hrest
    simp only at hend ⊢
    omega

theorem sequenceLength_pos (h : sequenceLength b = some n) : 0 < n := by
  unfold sequenceLength at h
  split_ifs at h <;> cases h <;> omega

theorem readChar_length (h : readChar us = some (c, rest)) : rest.length + 3 ≤ us.length := by
  simp only [readChar, Option.bind_eq_bind, Option.bind_eq_some_iff, Option.some.injEq, Prod.mk.injEq] at h
  obtain ⟨_, -, n, hn, ⟨_, last⟩, hbytes, _, -, -, rfl⟩ := h
  have hlength := readBytes_length hbytes
  have hpos := sequenceLength_pos hn
  simp only
  omega

theorem decodeFrom_length (h : decodeFrom n us = some vs) : vs.length ≤ us.length := by
  induction n generalizing us vs with
  | zero =>
    cases us with
    | nil =>
      cases h
      exact Nat.le_refl _
    | cons u us => cases h
  | succ n ih =>
    cases us with
    | nil =>
      cases h
      exact Nat.le_refl _
    | cons u us =>
      by_cases hu : u = percent
      · rw [hu, decodeFrom_triplet] at h
        obtain ⟨⟨c, rest⟩, hread, hmap⟩ := Option.bind_eq_some_iff.mp h
        obtain ⟨ws, hws, rfl⟩ := Option.map_eq_some_iff.mp hmap
        have hshorter := readChar_length hread
        have hrest := ih hws
        have hunits := length_encodeChar c
        rw [List.length_append, List.length_cons]
        rw [List.length_cons] at hshorter
        simp only at hrest ⊢
        omega
      · rw [decodeFrom_unit hu] at h
        obtain ⟨ws, hws, rfl⟩ := Option.map_eq_some_iff.mp h
        exact Nat.succ_le_succ (ih hws)

theorem length_decodeURIComponent (h : decodeURIComponent us = some vs) : vs.length ≤ us.length := decodeFrom_length h

end Cimp.UriComponent
