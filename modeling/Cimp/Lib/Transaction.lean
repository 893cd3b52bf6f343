import Mathlib.Data.List.Basic
import Mathlib.Data.List.Forall2
import Mathlib.Tactic.Common

namespace Cimp

universe u v

abbrev Statement (σ : Type u) := σ → Option σ

namespace Transaction

variable {σ : Type u} {β : Type v}

/-- The body of a transaction; `fails k` is the connection failing under the `k`-th statement. -/
def body (fails : ℕ → Bool) : List (Statement σ) → Statement σ
  | [], s => some s
  | q :: qs, s => if fails 0 then none else (q s).bind (body (fun k => fails (k + 1)) qs)

def commit (fails : ℕ → Bool) (qs : List (Statement σ)) (s : σ) : σ := (body fails qs s).getD s

def Keeps (π : σ → β) (q : Statement σ) : Prop := ∀ s t, q s = some t → π t = π s

theorem body_cons {fails : ℕ → Bool} {q : Statement σ} {qs : List (Statement σ)} {s t : σ}
    (h : body fails (q :: qs) s = some t) :
    ∃ m, q s = some m ∧ body (fun k => fails (k + 1)) qs m = some t := by
  unfold body at h
  split at h
  · cases h
  · simpa [Option.bind_eq_some_iff] using h

theorem body_one {fails : ℕ → Bool} {q : Statement σ} {s t : σ} (h : body fails [q] s = some t) : q s = some t := by
  obtain ⟨m, hm, hnil⟩ := body_cons h
  cases hnil
  exact hm

theorem body_two {fails : ℕ → Bool} {p q : Statement σ} {s t : σ} (h : body fails [p, q] s = some t) :
    ∃ m, p s = some m ∧ q m = some t := by
  obtain ⟨m, hm, hrest⟩ := body_cons h
  exact ⟨m, hm, body_one hrest⟩

theorem body_append {fails : ℕ → Bool} {ps qs : List (Statement σ)} {s t : σ}
    (h : body fails (ps ++ qs) s = some t) :
    ∃ m, body fails ps s = some m ∧ body (fun k => fails (k + ps.length)) qs m = some t := by
  induction ps generalizing fails s with
  | nil => exact ⟨s, rfl, h⟩
  | cons p ps ih =>
    simp only [List.cons_append] at h
    have hf : fails 0 = false := by
      by_contra hc
      simp [body, hc] at h
    obtain ⟨m, hm, hrest⟩ := body_cons h
    obtain ⟨m', hm', hq⟩ := ih hrest
    refine ⟨m', by simpa [body, hf, hm] using hm', ?_⟩
    have he : (fun k => fails (k + (p :: ps).length)) = fun k => fails (k + ps.length + 1) := by
      funext k
      rw [List.length_cons, Nat.add_assoc]
    rw [he]; exact hq

theorem Keeps.body {π : σ → β} {qs : List (Statement σ)} (hq : ∀ q ∈ qs, Keeps π q)
    (fails : ℕ → Bool) : Keeps π (body fails qs) := by
  intro s t h
  induction qs generalizing fails s with
  | nil => cases h; rfl
  | cons q qs ih =>
    obtain ⟨m, hm, hrest⟩ := body_cons h
    have hfirst := hq q List.mem_cons_self s m hm
    have hlater := ih (fun q' hq' => hq q' (List.mem_cons_of_mem _ hq')) _ m hrest
    exact hlater.trans hfirst

def Agree (π : σ → β) (q q' : Statement σ) : Prop := ∀ s t, π s = π t → (q s).map π = (q' t).map π

theorem Agree.body {π : σ → β} {qs qs' : List (Statement σ)} (h : List.Forall₂ (Agree π) qs qs')
    (fails : ℕ → Bool) : Agree π (body fails qs) (body fails qs') := by
  intro s t hst
  induction h generalizing fails s t with
  | nil => simpa [Transaction.body] using hst
  | @cons q q' qs qs' hq _ ih =>
    simp only [Transaction.body]
    split
    · rfl
    · have hfirst := hq s t hst
      cases hs : q s with
      | none =>
        rw [hs, Option.map_none] at hfirst
        rw [Option.map_eq_none_iff.mp hfirst.symm]
        rfl
      | some m =>
        rw [hs, Option.map_some] at hfirst
        obtain ⟨m', hm', heq⟩ := Option.map_eq_some_iff.mp hfirst.symm
        rw [hm']
        exact ih _ m m' heq.symm

theorem Agree.commit {π : σ → β} {qs qs' : List (Statement σ)} (h : List.Forall₂ (Agree π) qs qs')
    (fails : ℕ → Bool) {s t : σ} (hst : π s = π t) : π (commit fails qs s) = π (commit fails qs' t) := by
  have hbody := Agree.body h fails s t hst
  simp only [Transaction.commit]
  cases hs : Transaction.body fails qs s with
  | none =>
    rw [hs, Option.map_none] at hbody
    rw [Option.map_eq_none_iff.mp hbody.symm]
    exact hst
  | some m =>
    rw [hs, Option.map_some] at hbody
    obtain ⟨m', hm', heq⟩ := Option.map_eq_some_iff.mp hbody.symm
    rw [hm']
    exact heq.symm

theorem commit_of_none {fails : ℕ → Bool} {qs : List (Statement σ)} {s : σ}
    (h : body fails qs s = none) : commit fails qs s = s := by simp [commit, h]

theorem commit_of_some {fails : ℕ → Bool} {qs : List (Statement σ)} {s t : σ}
    (h : body fails qs s = some t) : commit fails qs s = t := by simp [commit, h]

theorem commit_cases (fails : ℕ → Bool) (qs : List (Statement σ)) (s : σ) :
    (body fails qs s = none ∧ commit fails qs s = s) ∨
      ∃ t, body fails qs s = some t ∧ commit fails qs s = t := by
  cases h : body fails qs s with
  | none => exact .inl ⟨rfl, commit_of_none h⟩
  | some t => exact .inr ⟨t, rfl, commit_of_some h⟩

theorem Keeps.commit {π : σ → β} {qs : List (Statement σ)} (h : ∀ q ∈ qs, Keeps π q) (fails : ℕ → Bool) (s : σ) :
    π (commit fails qs s) = π s := by
  rcases commit_cases fails qs s with ⟨_, hc⟩ | ⟨t, ht, hc⟩
  · rw [hc]
  · rw [hc]
    exact Keeps.body h fails s t ht

theorem body_preserves {P : σ → Prop} {qs : List (Statement σ)} (hq : ∀ q ∈ qs, ∀ s t, q s = some t → P s → P t)
    {fails : ℕ → Bool} {s t : σ} (h : body fails qs s = some t) (hs : P s) : P t := by
  induction qs generalizing fails s with
  | nil =>
    cases h
    exact hs
  | cons q qs ih =>
    obtain ⟨m, hm, hrest⟩ := body_cons h
    apply ih (fun q' hq' => hq q' (List.mem_cons_of_mem _ hq')) hrest
    exact hq q List.mem_cons_self s m hm hs

theorem commit_preserves {P : σ → Prop} {qs : List (Statement σ)} (hq : ∀ q ∈ qs, ∀ s t, q s = some t → P s → P t)
    {fails : ℕ → Bool} {s : σ} (hs : P s) : P (commit fails qs s) := by
  rcases commit_cases fails qs s with ⟨_, hc⟩ | ⟨t, ht, hc⟩
  · rw [hc]
    exact hs
  · rw [hc]
    exact body_preserves hq ht hs

end Transaction

end Cimp
