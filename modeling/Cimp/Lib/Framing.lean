import Mathlib.Algebra.Group.Nat.Defs
import Mathlib.Data.List.Basic
import Mathlib.Tactic.Common

namespace Cimp.Framing

def bigEndian : ℕ → ℕ → List UInt8
  | 0, _ => []
  | width + 1, n => bigEndian width (n / 256) ++ [UInt8.ofNat n]

def ofBigEndian (bytes : List UInt8) : ℕ := bytes.foldl (fun n b => n * 256 + b.toNat) 0

def frame (width : ℕ) (bytes : List UInt8) : List UInt8 := bigEndian width bytes.length ++ bytes

/-- Frames are read up to one without bytes; also answers what was not read. -/
def read (width : ℕ) (bytes : List UInt8) : Option (List (List UInt8) × List UInt8) :=
  if _ : bytes.length < width then none
  else if _ : ofBigEndian (bytes.take width) = 0 then some ([], bytes.drop width)
  else if _ : (bytes.drop width).length < ofBigEndian (bytes.take width) then none
  else
    (read width ((bytes.drop width).drop (ofBigEndian (bytes.take width)))).map fun r =>
      ((bytes.drop width).take (ofBigEndian (bytes.take width)) :: r.1, r.2)
termination_by bytes.length
decreasing_by
  rename_i hshort hzero hcut
  rw [List.length_drop] at hcut
  rw [List.length_drop, List.length_drop]
  omega

@[simp] theorem length_bigEndian (width n : ℕ) : (bigEndian width n).length = width := by
  induction width generalizing n with
  | zero => rfl
  | succ width ih => rw [bigEndian, List.length_append, ih, List.length_singleton]

theorem ofBigEndian_bigEndian {width n : ℕ} (h : n < 256 ^ width) : ofBigEndian (bigEndian width n) = n := by
  induction width generalizing n with
  | zero =>
    rw [Nat.pow_zero] at h
    obtain rfl : n = 0 := by omega
    rfl
  | succ width ih =>
    have hdiv : n / 256 < 256 ^ width := by
      apply Nat.div_lt_of_lt_mul
      rwa [Nat.mul_comm, ← Nat.pow_succ]
    have hfirst : (bigEndian width (n / 256)).foldl (fun n b => n * 256 + b.toNat) 0 = n / 256 := ih hdiv
    rw [ofBigEndian, bigEndian, List.foldl_append, hfirst, List.foldl_cons, List.foldl_nil, UInt8.toNat_ofNat']
    omega

variable {width : ℕ}

theorem read_terminator (rest : List UInt8) : read width (bigEndian width 0 ++ rest) = some ([], rest) := by
  have hzero : ofBigEndian (bigEndian width 0) = 0 := ofBigEndian_bigEndian (Nat.pow_pos (by omega))
  rw [read]
  simp only [List.length_append, length_bigEndian]
  rw [dif_neg (by omega), List.take_left' (length_bigEndian width 0), List.drop_left' (length_bigEndian width 0),
    dif_pos hzero]

theorem read_frame {bytes : List UInt8} (hne : bytes ≠ []) (hlength : bytes.length < 256 ^ width) (rest : List UInt8) :
    read width (frame width bytes ++ rest) = (read width rest).map fun r => (bytes :: r.1, r.2) := by
  have hn : ofBigEndian (bigEndian width bytes.length) = bytes.length := ofBigEndian_bigEndian hlength
  have hpos : bytes.length ≠ 0 := fun h => hne (List.length_eq_zero_iff.mp h)
  rw [read, frame, List.append_assoc]
  simp only [List.length_append, length_bigEndian]
  rw [dif_neg (by omega), List.take_left' (length_bigEndian width _), List.drop_left' (length_bigEndian width _), hn,
    dif_neg hpos]
  simp only [List.length_append]
  rw [dif_neg (by omega), List.take_left' rfl, List.drop_left' rfl]

theorem read_frames {pieces : List (List UInt8)} (h : ∀ bytes ∈ pieces, bytes ≠ [] ∧ bytes.length < 256 ^ width)
    (rest : List UInt8) :
    read width (pieces.flatMap (frame width) ++ (bigEndian width 0 ++ rest)) = some (pieces, rest) := by
  induction pieces with
  | nil => exact read_terminator rest
  | cons bytes pieces ih =>
    obtain ⟨⟨hne, hlength⟩, hrest⟩ := List.forall_mem_cons.mp h
    rw [List.flatMap_cons, List.append_assoc, read_frame hne hlength, ih hrest]
    rfl

end Cimp.Framing
