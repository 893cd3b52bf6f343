import Cimp.Lib.Utf16
import Cimp.Lib.Escapes
import Mathlib.Data.List.Induction

namespace Cimp.Json

open Utf16 Escapes

abbrev Text := List UInt16

/-- An object lists its own properties in the order of `Object.keys`. -/
inductive Value (ν : Type)
  | null
  | bool (b : Bool)
  | num (x : ν)
  | str (s : Text)
  | arr (items : List (Value ν))
  | obj (fields : List (Text × Value ν))

abbrev Fields (ν : Type) := List (Text × Value ν)

variable {ν : Type}

/-- `At d w v`: `w` stands in `v`, `d` arrays and objects deep. -/
inductive At : ℕ → Value ν → Value ν → Prop
  | root (v : Value ν) : At 0 v v
  | item {d : ℕ} {w v : Value ν} {items : List (Value ν)} : v ∈ items → At d w v → At (d + 1) w (.arr items)
  | field {d : ℕ} {k : Text} {w v : Value ν} {fields : Fields ν} :
      (k, v) ∈ fields → At d w v → At (d + 1) w (.obj fields)

mutual

def texts : Value ν → List Text
  | .null | .bool _ | .num _ => []
  | .str s => [s]
  | .arr items => textsItems items
  | .obj fields => textsFields fields

def textsItems : List (Value ν) → List Text
  | [] => []
  | v :: vs => texts v ++ textsItems vs

def textsFields : List (Text × Value ν) → List Text
  | [] => []
  | (k, v) :: fields => k :: (texts v ++ textsFields fields)

end

def digitValue (u : UInt16) : Option ℕ := if 0x30 ≤ u ∧ u ≤ 0x39 then some (u.toNat - 0x30) else none

def decimalValue : ℕ → Text → Option ℕ
  | n, [] => some n
  | n, u :: us => (digitValue u).bind fun d => decimalValue (n * 10 + d) us

/-- The keys that come first and in ascending order: the decimal texts of the numbers below 2^32 - 1. -/
def arrayIndex (k : Text) : Option ℕ :=
  if k = [] ∨ k.length > 10 ∨ k.head? = some 0x30 ∧ k ≠ [0x30] then none
  else (decimalValue 0 k).filter (· < 0xFFFFFFFF)

def rank (k : Text) : ℕ := (arrayIndex k).getD 0xFFFFFFFF

def insertField (f : Text × Value ν) : Fields ν → Fields ν
  | [] => [f]
  | g :: gs => if rank g.1 ≤ rank f.1 then g :: insertField f gs else f :: g :: gs

def keys (fields : Fields ν) : List Text := fields.map Prod.fst

/-- `out[k] = v`: a key that is there keeps its place. -/
def assign (out : Fields ν) (f : Text × Value ν) : Fields ν :=
  if f.1 ∈ keys out then out.map fun g => if g.1 = f.1 then f else g else insertField f out

def assignAll (fields : Fields ν) : Fields ν := fields.foldl assign []

/-- The fields of an object stand so. -/
structure Ordered (fields : Fields ν) : Prop where
  nodup : (keys fields).Nodup
  sorted : (keys fields).Pairwise fun k l => rank k ≤ rank l

variable {f g : Text × Value ν} {fields out : Fields ν} {k : Text} {v : Value ν}

theorem mem_textsItems {items : List (Value ν)} {s : Text} : s ∈ textsItems items ↔ ∃ v ∈ items, s ∈ texts v := by
  induction items with
  | nil => simp [textsItems]
  | cons v vs ih => simp [textsItems, ih]

theorem mem_textsFields {s : Text} : s ∈ textsFields fields ↔ s ∈ keys fields ∨ ∃ f ∈ fields, s ∈ texts f.2 := by
  induction fields with
  | nil => simp [textsFields, keys]
  | cons f fields ih =>
    have hkeys : s ∈ keys (f :: fields) ↔ s = f.1 ∨ s ∈ keys fields := List.mem_cons
    rw [textsFields, List.mem_cons, List.mem_append, ih, hkeys]
    simp only [List.mem_cons, exists_eq_or_imp]
    tauto

theorem keys_append (fields out : Fields ν) : keys (fields ++ out) = keys fields ++ keys out := List.map_append

theorem insertField_perm (f : Text × Value ν) (out : Fields ν) : (insertField f out).Perm (f :: out) := by
  induction out with
  | nil => exact .refl _
  | cons g gs ih =>
    rw [insertField]
    split_ifs
    · exact (ih.cons g).trans (.swap f g gs)
    · exact .refl _

theorem insertField_last (h : ∀ g ∈ out, rank g.1 ≤ rank f.1) : insertField f out = out ++ [f] := by
  induction out with
  | nil => rfl
  | cons g gs ih =>
    obtain ⟨hg, hgs⟩ := List.forall_mem_cons.mp h
    rw [insertField, if_pos hg, ih hgs, List.cons_append]

theorem sorted_insertField (h : (keys out).Pairwise fun k l => rank k ≤ rank l) :
    (keys (insertField f out)).Pairwise fun k l => rank k ≤ rank l := by
  induction out with
  | nil => exact List.pairwise_singleton _ _
  | cons g gs ih =>
    obtain ⟨hfirst, hrest⟩ := List.pairwise_cons.mp h
    rw [insertField]
    split_ifs with hle
    · refine List.pairwise_cons.mpr ⟨?_, ih hrest⟩
      intro l hl
      obtain ⟨x, hx, rfl⟩ := List.mem_map.mp hl
      cases List.mem_cons.mp ((insertField_perm f gs).mem_iff.mp hx) with
      | inl heq => rwa [heq]
      | inr hmem => exact hfirst _ (List.mem_map_of_mem hmem)
    · refine List.pairwise_cons.mpr ⟨?_, h⟩
      intro l hl
      cases List.mem_cons.mp hl with
      | inl heq =>
        rw [heq]
        omega
      | inr hmem =>
        have hg : rank g.1 ≤ rank l := hfirst l hmem
        omega

theorem keys_replace (out : Fields ν) : keys (out.map fun g => if g.1 = f.1 then f else g) = keys out := by
  rw [keys, keys, List.map_map]
  apply List.map_congr_left
  intro g _
  rw [Function.comp_apply]
  split_ifs with h
  · exact h.symm
  · rfl

theorem keys_assign (out : Fields ν) (f : Text × Value ν) :
    k ∈ keys (assign out f) ↔ k ∈ keys out ∨ k = f.1 := by
  rw [assign]
  split_ifs with h
  · rw [keys_replace]
    constructor
    · exact .inl
    · rintro (hk | rfl)
      · exact hk
      · exact h
  · rw [keys, ((insertField_perm f out).map Prod.fst).mem_iff, List.map_cons, List.mem_cons, or_comm]
    rfl

theorem ordered_assign (h : Ordered out) (f : Text × Value ν) : Ordered (assign out f) := by
  rw [assign]
  split_ifs with hmem
  · refine ⟨?_, ?_⟩
    · rw [keys_replace]
      exact h.nodup
    · rw [keys_replace]
      exact h.sorted
  · refine ⟨?_, sorted_insertField h.sorted⟩
    rw [keys, ((insertField_perm f out).map Prod.fst).nodup_iff, List.map_cons]
    exact List.nodup_cons.mpr ⟨hmem, h.nodup⟩

theorem ordered_foldl (h : Ordered out) (fields : Fields ν) : Ordered (fields.foldl assign out) := by
  induction fields generalizing out with
  | nil => exact h
  | cons f fields ih => exact ih (ordered_assign h f)

theorem ordered_nil : Ordered ([] : Fields ν) := ⟨List.nodup_nil, List.Pairwise.nil⟩

theorem ordered_assignAll (fields : Fields ν) : Ordered (assignAll fields) := ordered_foldl ordered_nil fields

theorem assign_last (h : Ordered (fields ++ [f])) : assign fields f = fields ++ [f] := by
  obtain ⟨hnodup, hsorted⟩ := h
  rw [keys_append] at hnodup hsorted
  have hnew : f.1 ∉ keys fields := fun hmem => (List.nodup_append.mp hnodup).2.2 _ hmem _ (List.mem_singleton_self _) rfl
  rw [assign, if_neg hnew]
  apply insertField_last
  intro g hg
  exact (List.pairwise_append.mp hsorted).2.2 _ (List.mem_map_of_mem hg) _ (List.mem_singleton_self _)

theorem ordered_front (h : Ordered (fields ++ out)) : Ordered fields := by
  obtain ⟨hnodup, hsorted⟩ := h
  rw [keys_append] at hnodup hsorted
  exact ⟨(List.nodup_append.mp hnodup).1, (List.pairwise_append.mp hsorted).1⟩

theorem assignAll_of_ordered (h : Ordered fields) : assignAll fields = fields := by
  induction fields using List.reverseRecOn with
  | nil => rfl
  | append_singleton fields f ih =>
    have hfront := ih (ordered_front h)
    rw [assignAll] at hfront ⊢
    rw [List.foldl_append, hfront, List.foldl_cons, List.foldl_nil, assign_last h]

theorem length_assign_le (out : Fields ν) (f : Text × Value ν) : (assign out f).length ≤ out.length + 1 := by
  rw [assign]
  split_ifs
  · rw [List.length_map]
    omega
  · exact Nat.le_of_eq (insertField_perm f out).length_eq

theorem assignAll_snoc (fields : Fields ν) (f : Text × Value ν) :
    assignAll (fields ++ [f]) = assign (assignAll fields) f := by
  rw [assignAll, List.foldl_append]
  rfl

theorem length_assignAll_le (fields : Fields ν) : (assignAll fields).length ≤ fields.length := by
  induction fields using List.reverseRecOn with
  | nil => exact Nat.le_refl _
  | append_singleton fields f ih =>
    have hlast := length_assign_le (assignAll fields) f
    rw [assignAll_snoc, List.length_append, List.length_singleton]
    omega

theorem mem_assign : g ∈ assign out f ↔ g = f ∨ g ∈ out ∧ g.1 ≠ f.1 := by
  rw [assign]
  split_ifs with h
  · rw [List.mem_map]
    constructor
    · rintro ⟨x, hx, rfl⟩
      split_ifs with heq
      · exact .inl rfl
      · exact .inr ⟨hx, heq⟩
    · rintro (rfl | ⟨hg, hne⟩)
      · obtain ⟨x, hx, heq⟩ := List.mem_map.mp h
        exact ⟨x, hx, if_pos heq⟩
      · exact ⟨g, hg, if_neg hne⟩
  · rw [(insertField_perm f out).mem_iff, List.mem_cons]
    constructor
    · rintro (rfl | hg)
      · exact .inl rfl
      · exact .inr ⟨hg, fun heq => h (heq ▸ List.mem_map_of_mem hg)⟩
    · rintro (rfl | ⟨hg, -⟩)
      · exact .inl rfl
      · exact .inr hg

theorem mem_assignAll : g ∈ assignAll fields ↔
    ∃ front rest, fields = front ++ g :: rest ∧ g.1 ∉ keys rest := by
  induction fields using List.reverseRecOn with
  | nil => simp [assignAll]
  | append_singleton fields f ih =>
    rw [assignAll_snoc, mem_assign, ih]
    constructor
    · rintro (rfl | ⟨⟨front, rest, rfl, hrest⟩, hne⟩)
      · exact ⟨fields, [], rfl, List.not_mem_nil⟩
      · refine ⟨front, rest ++ [f], by simp, ?_⟩
        rw [keys_append, List.mem_append, not_or]
        exact ⟨hrest, fun hmem => hne (List.mem_singleton.mp hmem)⟩
    · rintro ⟨front, rest, hsplit, hrest⟩
      cases rest using List.reverseRecOn with
      | nil =>
        have hlast := (List.append_inj' hsplit rfl).2
        exact .inl (List.singleton_inj.mp hlast).symm
      | append_singleton rest l =>
        have hassoc : fields ++ [f] = (front ++ g :: rest) ++ [l] := by rw [hsplit]; simp
        obtain ⟨hfields, hlast⟩ := List.append_inj' hassoc rfl
        obtain rfl := List.singleton_inj.mp hlast
        rw [keys_append, List.mem_append, not_or] at hrest
        exact .inr ⟨⟨front, rest, hfields, hrest.1⟩, fun heq => hrest.2 (heq ▸ List.mem_singleton_self _)⟩

end Cimp.Json
