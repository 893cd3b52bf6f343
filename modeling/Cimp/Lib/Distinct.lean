import Mathlib.Data.List.Nodup
import Mathlib.Tactic.Common

namespace Cimp.Distinct

universe u v

variable {α : Type u} {κ : Type v} [DecidableEq κ] (key : α → κ)

/-- Filling a map that a key enters once: later values under it are passed over. -/
def keep (kept : List α) (a : α) : List α := if key a ∈ kept.map key then kept else kept ++ [a]

def firsts (as : List α) : List α := as.foldl (keep key) []

variable {key}

theorem mem_keep {kept : List α} {a b : α} (h : b ∈ keep key kept a) : b ∈ kept ∨ b = a := by
  unfold keep at h
  split at h
  · exact .inl h
  · simpa using h

theorem mem_keys_keep {kept : List α} {a : α} {k : κ} :
    k ∈ (keep key kept a).map key ↔ k ∈ kept.map key ∨ k = key a := by
  unfold keep
  split
  · rename_i hseen
    constructor
    · exact .inl
    · rintro (hk | rfl)
      · exact hk
      · exact hseen
  · rw [List.map_append, List.mem_append]
    simp

theorem nodup_keep {kept : List α} (h : (kept.map key).Nodup) (a : α) : ((keep key kept a).map key).Nodup := by
  unfold keep
  split
  · exact h
  · rename_i hfresh
    rw [List.map_append, List.map_singleton, List.nodup_append]
    refine ⟨h, List.nodup_singleton _, ?_⟩
    rintro k hk k' hk' rfl
    rw [List.mem_singleton.mp hk'] at hk
    exact hfresh hk

theorem foldl_keep (as kept : List α) (h : (kept.map key).Nodup) :
    ((as.foldl (keep key) kept).map key).Nodup ∧
      (∀ a ∈ as.foldl (keep key) kept, a ∈ kept ∨ a ∈ as) ∧
      ∀ k, k ∈ (as.foldl (keep key) kept).map key ↔ k ∈ kept.map key ∨ k ∈ as.map key := by
  induction as generalizing kept with
  | nil => exact ⟨h, fun a ha => .inl ha, fun k => by simp⟩
  | cons a as ih =>
    obtain ⟨hnodup, hmem, hkeys⟩ := ih (keep key kept a) (nodup_keep h a)
    refine ⟨hnodup, ?_, ?_⟩
    · intro b hb
      rcases hmem b hb with hkept | hlater
      · rcases mem_keep hkept with hb | rfl
        · exact .inl hb
        · exact .inr List.mem_cons_self
      · exact .inr (List.mem_cons_of_mem _ hlater)
    · intro k
      rw [List.foldl_cons, hkeys, mem_keys_keep, List.map_cons, List.mem_cons, or_assoc]

theorem nodup_firsts (as : List α) : ((firsts key as).map key).Nodup := (foldl_keep as [] List.nodup_nil).1

theorem mem_keys_firsts {as : List α} {k : κ} : k ∈ (firsts key as).map key ↔ k ∈ as.map key := by
  rw [firsts, (foldl_keep as [] List.nodup_nil).2.2 k]
  simp

end Cimp.Distinct
