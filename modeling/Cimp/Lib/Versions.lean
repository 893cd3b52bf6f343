import Mathlib.Data.Option.Basic
import Mathlib.Tactic.Common

namespace Cimp.Versions

universe u v

variable {κ : Type u} {β : Type v}

/-- A row under concurrent transactions: the version last committed, and the version of the
transaction that holds the row lock. A version that is `none` is a row that is not there. -/
structure Cell (κ : Type u) (β : Type v) where
  stored : Option β
  pending : Option (κ × Option β)

namespace Cell

def Held (k : κ) (c : Cell κ β) : Prop := ∃ v, c.pending = some (k, v)

def write (k : κ) (v : Option β) (c : Cell κ β) : Cell κ β := { c with pending := some (k, v) }

@[simp] theorem stored_write (k : κ) (v : Option β) (c : Cell κ β) : (c.write k v).stored = c.stored := rfl

theorem held_write {k l : κ} {c : Cell κ β} {v : Option β} : (c.write k v).Held l ↔ l = k := by
  constructor
  · rintro ⟨_, h⟩
    cases h
    rfl
  · rintro rfl
    exact ⟨v, rfl⟩

variable [DecidableEq κ]

/-- Whether `k` gets the row lock without waiting. -/
def free (k : κ) (c : Cell κ β) : Bool := c.pending.all fun p => p.1 = k

/-- What a statement of `k` reads: its own version, else the committed one. -/
def visible (k : κ) (c : Cell κ β) : Option β :=
  match c.pending with
  | none => c.stored
  | some p => if p.1 = k then p.2 else c.stored

def commit (k : κ) (c : Cell κ β) : Cell κ β :=
  match c.pending with
  | none => c
  | some p => if p.1 = k then ⟨p.2, none⟩ else c

def rollback (k : κ) (c : Cell κ β) : Cell κ β :=
  match c.pending with
  | none => c
  | some p => if p.1 = k then ⟨c.stored, none⟩ else c

variable {k l : κ} {c : Cell κ β}

@[simp] theorem visible_write_self (v : Option β) : (c.write k v).visible k = v := if_pos rfl

theorem visible_of_not_held (h : ¬ c.Held k) : c.visible k = c.stored := by
  unfold visible
  split
  · rfl
  · rename_i p hp
    exact if_neg fun he => h ⟨p.2, by rw [hp, ← he]⟩

theorem pending_of_free (hfree : c.free k = true) (h : ¬ c.Held k) : c.pending = none := by
  cases hp : c.pending with
  | none => rfl
  | some p =>
    simp only [free, hp, Option.all_some, decide_eq_true_eq] at hfree
    exact absurd ⟨p.2, by rw [hp, ← hfree]⟩ h

theorem visible_write_of_ne {v : Option β} (hfree : c.free k = true) (hne : l ≠ k) :
    (c.write k v).visible l = c.visible l := by
  have hother : ¬ c.Held l := by
    rintro ⟨w, hw⟩
    simp only [free, hw, Option.all_some, decide_eq_true_eq] at hfree
    exact hne hfree
  rw [visible_of_not_held hother]
  exact if_neg fun he => hne he.symm

theorem stored_commit (k : κ) (c : Cell κ β) : (c.commit k).stored = c.visible k := by
  unfold commit visible
  split
  · rfl
  · split <;> rfl

theorem commit_of_not_held (h : ¬ c.Held k) : c.commit k = c := by
  unfold commit
  split
  · rfl
  · rename_i p hp
    exact if_neg fun he => h ⟨p.2, by rw [hp, ← he]⟩

theorem stored_rollback (k : κ) (c : Cell κ β) : (c.rollback k).stored = c.stored := by
  unfold rollback
  split
  · rfl
  · split <;> rfl

theorem rollback_of_not_held (h : ¬ c.Held k) : c.rollback k = c := by
  unfold rollback
  split
  · rfl
  · rename_i p hp
    exact if_neg fun he => h ⟨p.2, by rw [hp, ← he]⟩

theorem pending_rollback {p : κ × Option β} : (c.rollback k).pending = some p ↔ c.pending = some p ∧ p.1 ≠ k := by
  unfold rollback
  split
  · rename_i hc
    simp [hc]
  · rename_i q hq
    split
    · rename_i hk
      simp only [hq, reduceCtorEq, Option.some.injEq, false_iff, not_and, not_not]
      rintro rfl
      exact hk
    · rename_i hk
      simp only [hq, Option.some.injEq, iff_self_and]
      rintro rfl
      exact hk

theorem pending_commit_eq (k : κ) (c : Cell κ β) : (c.commit k).pending = (c.rollback k).pending := by
  unfold commit rollback
  split
  · rfl
  · split <;> rfl

theorem pending_commit {p : κ × Option β} : (c.commit k).pending = some p ↔ c.pending = some p ∧ p.1 ≠ k := by
  rw [pending_commit_eq, pending_rollback]

theorem visible_rollback (hne : l ≠ k) (c : Cell κ β) : (c.rollback k).visible l = c.visible l := by
  by_cases h : c.Held k
  · obtain ⟨v, hv⟩ := h
    have hother : k ≠ l := fun he => hne he.symm
    simp only [rollback, visible, hv, if_true, if_neg hother]
  · rw [rollback_of_not_held h]

end Cell

end Cimp.Versions
