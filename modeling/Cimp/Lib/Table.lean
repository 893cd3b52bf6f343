import Mathlib.Data.List.Basic
import Mathlib.Data.List.Nodup
import Mathlib.Tactic.Common

namespace Cimp

universe u v

/-- Rows in insertion order under a primary key, which no two rows share. -/
@[ext] structure Table {ρ : Type u} {κ : Type v} (key : ρ → κ) where
  rows : List ρ
  nodup : (rows.map key).Nodup

namespace Table

variable {ρ : Type u} {κ : Type v} {key : ρ → κ}

def empty : Table key := ⟨[], List.nodup_nil⟩

instance [DecidableEq ρ] : DecidableEq (Table key) := fun s t =>
  decidable_of_iff (s.rows = t.rows) ⟨fun h => Table.ext h, fun h => h ▸ rfl⟩

variable [DecidableEq κ]

def findOne (t : Table key) (k : κ) : Option ρ := t.rows.find? (fun r => key r = k)

def insert (t : Table key) (r : ρ) : Option (Table key) :=
  if h : key r ∈ t.rows.map key then none
  else some ⟨t.rows ++ [r], by
    simpa [List.nodup_append, t.nodup] using fun a ha he => h (List.mem_map.mpr ⟨a, ha, he⟩)⟩

/-- `UPDATE ... WHERE key = k`; the assignments never touch the key. -/
def update (t : Table key) (k : κ) (f : ρ → ρ) (hf : ∀ r, key (f r) = key r) : Table key where
  rows := t.rows.map fun r => if key r = k then f r else r
  nodup := by
    have : (t.rows.map fun r => if key r = k then f r else r).map key = t.rows.map key := by
      rw [List.map_map]
      apply List.map_congr_left
      intro r _
      simp only [Function.comp_apply]
      split <;> simp [hf]
    rw [this]; exact t.nodup

def modify (t : Table key) (f : ρ → ρ) (hf : ∀ r, key (f r) = key r) : Table key where
  rows := t.rows.map f
  nodup := by
    have : (t.rows.map f).map key = t.rows.map key := by
      rw [List.map_map]
      exact List.map_congr_left fun r _ => hf r
    rw [this]; exact t.nodup

def delete (t : Table key) (k : κ) : Table key where
  rows := t.rows.filter fun r => key r ≠ k
  nodup := t.nodup.sublist (List.filter_sublist.map key)

def filter (t : Table key) (p : ρ → Bool) : Table key where
  rows := t.rows.filter p
  nodup := t.nodup.sublist (List.filter_sublist.map key)

theorem findOne_key {t : Table key} {k : κ} {r : ρ} (h : t.findOne k = some r) : key r = k := by
  simpa using List.find?_some h

theorem mem_of_findOne {t : Table key} {k : κ} {r : ρ} (h : t.findOne k = some r) : r ∈ t.rows :=
  List.mem_of_find?_eq_some h

theorem findOne_of_mem {t : Table key} {r : ρ} (h : r ∈ t.rows) : t.findOne (key r) = some r := by
  obtain ⟨r', hr'⟩ : ∃ r', t.findOne (key r) = some r' := by
    rw [← Option.isSome_iff_exists, findOne, List.find?_isSome]
    exact ⟨r, h, by simp⟩
  rw [hr', List.inj_on_of_nodup_map t.nodup (mem_of_findOne hr') h (findOne_key hr')]

theorem findOne_self {t : Table key} {k : κ} {r : ρ} (h : t.findOne k = some r) :
    t.findOne (key r) = some r := findOne_of_mem (mem_of_findOne h)

theorem findOne_unique {t : Table key} {k : κ} {r r' : ρ} (h : t.findOne k = some r)
    (h' : t.findOne (key r) = some r') : r' = r := by
  rw [findOne_self h] at h'
  exact (Option.some.inj h').symm

theorem ne_of_findOne {t : Table key} {k j : κ} {r : ρ} (h : t.findOne k = some r) (h' : ∀ r' ∈ t.findOne j, r' ≠ r) :
    k ≠ j := by
  intro hkj
  rw [hkj] at h
  exact h' r h rfl

theorem findOne_update (t : Table key) (k : κ) (f : ρ → ρ) (hf : ∀ r, key (f r) = key r) (j : κ) :
    (t.update k f hf).findOne j = if j = k then (t.findOne j).map f else t.findOne j := by
  have hkey : ((fun r => decide (key r = j)) ∘ fun r => if key r = k then f r else r) =
      fun r => decide (key r = j) := by
    funext r
    simp only [Function.comp_apply]
    split <;> simp [hf]
  simp only [findOne, update, List.find?_map, hkey]
  cases hr : t.rows.find? (fun r => decide (key r = j)) with
  | none => simp
  | some r =>
    have hj : key r = j := by simpa using List.find?_some hr
    simp only [Option.map_some, hj]
    split <;> rfl

@[simp] theorem findOne_update_self (t : Table key) (k : κ) (f : ρ → ρ)
    (hf : ∀ r, key (f r) = key r) : (t.update k f hf).findOne k = (t.findOne k).map f := by
  rw [findOne_update, if_pos rfl]

theorem findOne_update_ne (t : Table key) {k j : κ} (f : ρ → ρ) (hf : ∀ r, key (f r) = key r)
    (h : j ≠ k) : (t.update k f hf).findOne j = t.findOne j := by
  rw [findOne_update, if_neg h]

theorem findOne_insert {t t' : Table key} {r : ρ} (h : t.insert r = some t') (j : κ) :
    t'.findOne j = if j = key r then some r else t.findOne j := by
  unfold insert at h
  split at h
  · cases h
  · rename_i hfresh
    cases h
    simp only [findOne, List.find?_append]
    by_cases hj : j = key r
    · have hnone : t.rows.find? (fun q => decide (key q = j)) = none := by
        rw [List.find?_eq_none]
        intro q hq
        have : key q ≠ j := fun he => hfresh (List.mem_map.mpr ⟨q, hq, he.trans hj⟩)
        simpa using this
      simp [hnone, ← hj]
    · have : key r ≠ j := fun he => hj he.symm
      simp [hj, this]

theorem insert_fresh {t t' : Table key} {r : ρ} (h : t.insert r = some t') :
    t.findOne (key r) = none := by
  unfold insert at h
  split at h
  · cases h
  · rename_i hfresh
    rw [findOne, List.find?_eq_none]
    intro q hq
    have : key q ≠ key r := fun he => hfresh (List.mem_map.mpr ⟨q, hq, he⟩)
    simpa using this

theorem rows_insert {t t' : Table key} {r : ρ} (h : t.insert r = some t') :
    t'.rows = t.rows ++ [r] := by
  unfold insert at h
  split at h
  · cases h
  · cases h; rfl

theorem mem_insert {t t' : Table key} {r : ρ} (h : t.insert r = some t') {q : ρ} :
    q ∈ t'.rows ↔ q ∈ t.rows ∨ q = r := by
  rw [rows_insert h, List.mem_append, List.mem_singleton]

theorem insert_eq_none_iff {t : Table key} {r : ρ} : t.insert r = none ↔ (t.findOne (key r)).isSome = true := by
  unfold insert
  rw [findOne, List.find?_isSome]
  split
  · rename_i h
    obtain ⟨q, hq, hkey⟩ := List.mem_map.mp h
    exact iff_of_true rfl ⟨q, hq, decide_eq_true hkey⟩
  · rename_i h
    apply iff_of_false (by simp)
    rintro ⟨q, hq, hkey⟩
    exact h (List.mem_map.mpr ⟨q, hq, of_decide_eq_true hkey⟩)

theorem findOne_filter (t : Table key) (p : ρ → Bool) (k : κ) :
    (t.filter p).findOne k = (t.findOne k).filter p := by
  cases hr : t.findOne k with
  | none =>
    rw [Option.filter_none, findOne, List.find?_eq_none]
    intro r hr'
    exact List.find?_eq_none.mp hr r (List.mem_of_mem_filter hr')
  | some r =>
    cases hp : p r with
    | true =>
      have hmem : r ∈ (t.filter p).rows := List.mem_filter.mpr ⟨mem_of_findOne hr, hp⟩
      have hfind := findOne_of_mem hmem
      rw [findOne_key hr] at hfind
      rw [hfind, Option.filter_some, if_pos hp]
    | false =>
      rw [Option.filter_some, if_neg (by simp [hp]), findOne, List.find?_eq_none]
      intro q hq
      obtain ⟨hmem, hpq⟩ := List.mem_filter.mp hq
      have hne : key q ≠ k := by
        rintro rfl
        rw [findOne_of_mem hmem] at hr
        cases hr
        rw [hpq] at hp
        cases hp
      simpa using hne

theorem findOne_delete (t : Table key) (k j : κ) :
    (t.delete k).findOne j = if j = k then none else t.findOne j := by
  simp only [findOne, delete, List.find?_filter]
  split
  · rename_i h
    simp [h]
  · rename_i h
    congr 1
    funext r
    by_cases hr : key r = j
    · simp [hr, h]
    · simp [hr]

theorem update_of_fixed (t : Table key) (k : κ) (f : ρ → ρ) (hf : ∀ r, key (f r) = key r)
    (h : ∀ r, t.findOne k = some r → f r = r) : t.update k f hf = t := by
  apply Table.ext
  simp only [update]
  conv_rhs => rw [← List.map_id t.rows]
  apply List.map_congr_left
  intro r hr
  split
  · rename_i hk
    exact h r (hk ▸ findOne_of_mem hr)
  · rfl

end Table

end Cimp
