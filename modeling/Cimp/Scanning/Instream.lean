import Cimp.Lib.Framing

namespace Cimp.ClamavScanService

open Framing

def chunk : ℕ := 64 * 1024

def command : List UInt8 := "zINSTREAM\x00".toUTF8.toList

def writeUInt32BE (n : ℕ) : List UInt8 := bigEndian 4 n

/-- What the loop writes from offset `i` on, one list for each `socket.write`. -/
def dataWrites (buffer : List UInt8) (i : ℕ) : List (List UInt8) :=
  if _ : i < buffer.length then
    writeUInt32BE ((buffer.drop i).take chunk).length :: (buffer.drop i).take chunk :: dataWrites buffer (i + chunk)
  else []
termination_by buffer.length - i
decreasing_by
  simp only [chunk]
  omega

def instream (buffer : List UInt8) : List (List UInt8) :=
  command :: (dataWrites buffer 0 ++ [writeUInt32BE 0])

variable {buffer : List UInt8} {i : ℕ}

def framed (data : List (List UInt8)) : List (List UInt8) :=
  data.flatMap fun slice => [writeUInt32BE slice.length, slice]

theorem flatten_framed (data : List (List UInt8)) : (framed data).flatten = data.flatMap (frame 4) := by
  induction data with
  | nil => rfl
  | cons slice data ih =>
    rw [List.flatMap_cons, ← ih, frame]
    simp only [framed, List.flatMap_cons, List.flatten_append, List.flatten_cons, List.flatten_nil, List.append_nil]
    rfl

theorem slice_bounds (h : i < buffer.length) :
    1 ≤ ((buffer.drop i).take chunk).length ∧ ((buffer.drop i).take chunk).length ≤ 65536 := by
  rw [List.length_take, List.length_drop, chunk]
  omega

theorem dataWrites_framed (buffer : List UInt8) (i : ℕ) :
    ∃ data, dataWrites buffer i = framed data ∧ (∀ slice ∈ data, 1 ≤ slice.length ∧ slice.length ≤ 65536) ∧
      data.flatten = buffer.drop i := by
  fun_induction dataWrites buffer i with
  | case1 i h ih =>
    obtain ⟨data, hwrites, hbounds, hflatten⟩ := ih
    refine ⟨(buffer.drop i).take chunk :: data, ?_, ?_, ?_⟩
    · rw [hwrites]
      rfl
    · exact List.forall_mem_cons.mpr ⟨slice_bounds h, hbounds⟩
    · rw [List.flatten_cons, hflatten, ← List.drop_drop, List.take_append_drop]
  | case2 i h =>
    refine ⟨[], rfl, by simp, ?_⟩
    rw [List.flatten_nil, List.drop_eq_nil_of_le (by omega)]

/-- The reader stops at the terminator with nothing left, and what it has read is the buffer. -/
theorem instream_reads_back (buffer : List UInt8) :
    ∃ data, instream buffer =
        command :: ((data.flatMap fun slice => [writeUInt32BE slice.length, slice]) ++ [writeUInt32BE 0]) ∧
      (∀ slice ∈ data, 1 ≤ slice.length ∧ slice.length ≤ 65536) ∧
      read 4 (instream buffer).tail.flatten = some (data, []) ∧ data.flatten = buffer := by
  obtain ⟨data, hwrites, hbounds, hflatten⟩ := dataWrites_framed buffer 0
  have hpieces : ∀ slice ∈ data, slice ≠ [] ∧ slice.length < 256 ^ 4 := by
    intro slice hslice
    have hlength := hbounds slice hslice
    constructor
    · apply List.ne_nil_of_length_pos
      omega
    · omega
  refine ⟨data, ?_, hbounds, ?_, hflatten⟩
  · rw [instream, hwrites]
    rfl
  · have hbytes : (instream buffer).tail.flatten = data.flatMap (frame 4) ++ (bigEndian 4 0 ++ []) := by
      rw [instream, List.tail_cons, List.flatten_append, hwrites, flatten_framed]
      rfl
    rw [hbytes]
    exact read_frames hpieces []

end Cimp.ClamavScanService
