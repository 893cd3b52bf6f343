import Mathlib.Logic.Function.Basic
import Mathlib.Tactic.Common

namespace Cimp.Ownership

universe u v

/-- What each key was once given to. A key keeps its owner when the row that bears it is gone. -/
abbrev Owners (κ : Type u) (τ : Type v) := κ → Option τ

variable {κ : Type u} {τ : Type v} {h h' h'' : Owners κ τ} {a b c : κ} {t : τ}

def Grows (h h' : Owners κ τ) : Prop := ∀ k t, h k = some t → h' k = some t

theorem Grows.refl (h : Owners κ τ) : Grows h h := fun _ _ hk => hk

def Together (h : Owners κ τ) (a b : κ) : Prop := ∃ t, h a = some t ∧ h b = some t

theorem Together.of (ha : h a = some t) (hb : h b = some t) : Together h a b := ⟨t, ha, hb⟩

theorem Together.symm (hab : Together h a b) : Together h b a := by
  obtain ⟨t, ha, hb⟩ := hab
  exact ⟨t, hb, ha⟩

theorem Together.trans (hab : Together h a b) (hbc : Together h b c) : Together h a c := by
  obtain ⟨t, ha, hb⟩ := hab
  obtain ⟨t', hb', hc⟩ := hbc
  rw [hb, Option.some_inj] at hb'
  subst hb'
  exact ⟨t, ha, hc⟩

theorem Together.owner (hab : Together h a b) (ha : h a = some t) : h b = some t := by
  obtain ⟨t', ha', hb⟩ := hab
  rw [ha'] at ha
  rw [hb, ha]

theorem Together.grows (hab : Together h a b) (hg : Grows h h') : Together h' a b := by
  obtain ⟨t, ha, hb⟩ := hab
  exact ⟨t, hg a t ha, hg b t hb⟩

variable [DecidableEq κ]

theorem grows_update (hfree : h a = none) : Grows h (Function.update h a (some t)) := by
  intro k u hk
  rw [Function.update_of_ne ?_, hk]
  rintro rfl
  rw [hfree] at hk
  cases hk

end Cimp.Ownership
