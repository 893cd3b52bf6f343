import Mathlib.Data.List.Basic
import Mathlib.Data.List.Infix
import Mathlib.Tactic.Common

namespace Cimp.Execution

universe u v

variable {σ : Type u} {α : Type v} (step : σ → α → σ)

/-- Runs are action lists: `step` is total, so a request that is refused is a step that changes nothing. -/
def exec (s : σ) (as : List α) : σ := as.foldl step s

def Always (P : σ → Prop) : σ → List α → Prop
  | s, [] => P s
  | s, a :: as => P s ∧ Always P (step s a) as

def EveryStep (G : σ → α → Prop) : σ → List α → Prop
  | _, [] => True
  | s, a :: as => G s a ∧ EveryStep G (step s a) as

instance decidableAlways (P : σ → Prop) [DecidablePred P] :
    (s : σ) → (as : List α) → Decidable (Always step P s as)
  | s, [] => inferInstanceAs (Decidable (P s))
  | s, a :: as =>
    have := decidableAlways P (step s a) as
    inferInstanceAs (Decidable (P s ∧ Always step P (step s a) as))

instance decidableEveryStep (G : σ → α → Prop) [∀ s a, Decidable (G s a)] :
    (s : σ) → (as : List α) → Decidable (EveryStep step G s as)
  | _, [] => inferInstanceAs (Decidable True)
  | s, a :: as =>
    have := decidableEveryStep G (step s a) as
    inferInstanceAs (Decidable (G s a ∧ EveryStep step G (step s a) as))

@[simp] theorem exec_nil (s : σ) : exec step s [] = s := rfl

@[simp] theorem exec_cons (s : σ) (a : α) (as : List α) :
    exec step s (a :: as) = exec step (step s a) as := rfl

theorem exec_append (s : σ) (as bs : List α) :
    exec step s (as ++ bs) = exec step (exec step s as) bs := List.foldl_append

variable {step}

theorem always_iff_initial {P : σ → Prop} {s : σ} {as : List α} :
    Always step P s as ↔ ∀ pre, pre <+: as → P (exec step s pre) := by
  induction as generalizing s with
  | nil => simp [Always]
  | cons a as ih =>
    simp only [Always, ih]
    constructor
    · rintro ⟨hs, hstep⟩ pre hpre
      cases pre with
      | nil => exact hs
      | cons b pre =>
        obtain ⟨rfl, htail⟩ := List.cons_prefix_cons.mp hpre
        exact hstep pre htail
    · intro h
      exact ⟨h [] List.nil_prefix, fun pre hpre => h (a :: pre) (List.cons_prefix_cons.mpr ⟨rfl, hpre⟩)⟩

theorem everyStep_iff_initial {G : σ → α → Prop} {s : σ} {as : List α} :
    EveryStep step G s as ↔ ∀ pre a, pre ++ [a] <+: as → G (exec step s pre) a := by
  induction as generalizing s with
  | nil => simp [EveryStep]
  | cons b as ih =>
    simp only [EveryStep, ih]
    constructor
    · rintro ⟨hb, hrest⟩ pre a hpre
      cases pre with
      | nil =>
        obtain ⟨rfl, _⟩ := List.cons_prefix_cons.mp hpre
        exact hb
      | cons c pre =>
        obtain ⟨rfl, htail⟩ := List.cons_prefix_cons.mp hpre
        exact hrest pre a htail
    · intro h
      refine ⟨h [] b (by simp), fun pre a hpre => ?_⟩
      exact h (b :: pre) a (List.cons_prefix_cons.mpr ⟨rfl, hpre⟩)

theorem Always.final {P : σ → Prop} {s : σ} {as : List α} (h : Always step P s as) :
    P (exec step s as) := always_iff_initial.mp h as List.prefix_rfl

theorem Always.mono {P Q : σ → Prop} (hpq : ∀ s, P s → Q s) {s : σ} {as : List α}
    (h : Always step P s as) : Always step Q s as :=
  always_iff_initial.mpr fun pre hpre => hpq _ (always_iff_initial.mp h pre hpre)

theorem Always.and {P Q : σ → Prop} {s : σ} {as : List α} (hp : Always step P s as) (hq : Always step Q s as) :
    Always step (fun s => P s ∧ Q s) s as :=
  always_iff_initial.mpr fun pre hpre => ⟨always_iff_initial.mp hp pre hpre, always_iff_initial.mp hq pre hpre⟩

/-- What a step keeps wherever `P` holds holds along every run inside `P`. -/
theorem Always.carry {P J : σ → Prop} (hstep : ∀ s a, P s → J s → J (step s a)) {s : σ} {as : List α}
    (hp : Always step P s as) (hj : J s) : Always step J s as := by
  induction as generalizing s with
  | nil => exact hj
  | cons a as ih => exact ⟨hj, ih hp.2 (hstep s a hp.1 hj)⟩

theorem Always.everyStep {P : σ → Prop} {G : σ → α → Prop} (hstep : ∀ s a, P s → P (step s a) → G s a) {s : σ}
    {as : List α} (h : Always step P s as) : EveryStep step G s as := by
  induction as generalizing s with
  | nil => trivial
  | cons a as ih =>
    have hnext : P (step s a) := always_iff_initial.mp h.2 [] List.nil_prefix
    exact ⟨hstep s a h.1 hnext, ih h.2⟩

theorem EveryStep.mono {G H : σ → α → Prop} (hgh : ∀ s a, G s a → H s a) {s : σ} {as : List α}
    (h : EveryStep step G s as) : EveryStep step H s as :=
  everyStep_iff_initial.mpr fun pre a hpre => hgh _ _ (everyStep_iff_initial.mp h pre a hpre)

theorem everyStep_append {G : σ → α → Prop} {s : σ} {as bs : List α} :
    EveryStep step G s (as ++ bs) ↔ EveryStep step G s as ∧ EveryStep step G (exec step s as) bs := by
  induction as generalizing s with
  | nil => simp [EveryStep]
  | cons a as ih => simp only [List.cons_append, EveryStep, exec_cons, ih, and_assoc]

/-- A run made of blocks of actions, where `I` holds between the blocks. -/
theorem everyStep_flatMap {β : Type*} {I : σ → Prop} {G : σ → α → Prop} {block : β → List α}
    (hblock : ∀ s b, I s → EveryStep step G s (block b) ∧ I (exec step s (block b))) {s : σ} (hs : I s)
    (bs : List β) : EveryStep step G s (bs.flatMap block) := by
  induction bs generalizing s with
  | nil => trivial
  | cons b bs ih =>
    obtain ⟨hb, hnext⟩ := hblock s b hs
    exact everyStep_append.mpr ⟨hb, ih hnext⟩

theorem everyStep_true {s : σ} {as : List α} : EveryStep step (fun _ _ => True) s as :=
  everyStep_iff_initial.mpr fun _ _ _ => trivial

theorem always_of_everyStep {I : σ → Prop} {G : σ → α → Prop}
    (hstep : ∀ s a, I s → G s a → I (step s a)) {s : σ} {as : List α} (hs : I s)
    (h : EveryStep step G s as) : Always step I s as := by
  induction as generalizing s with
  | nil => exact hs
  | cons a as ih => exact ⟨hs, ih (hstep s a hs h.1) h.2⟩

theorem everyStep_of_everyStep {I : σ → Prop} {G H : σ → α → Prop}
    (hstep : ∀ s a, I s → G s a → I (step s a)) (hgh : ∀ s a, I s → G s a → H s a) {s : σ} {as : List α} (hs : I s)
    (h : EveryStep step G s as) : EveryStep step H s as := by
  induction as generalizing s with
  | nil => trivial
  | cons a as ih => exact ⟨hgh s a hs h.1, ih (hstep s a hs h.1) h.2⟩

theorem always_of_step {I : σ → Prop} (hstep : ∀ s a, I s → I (step s a)) {s : σ} (hs : I s)
    (as : List α) : Always step I s as :=
  always_of_everyStep (G := fun _ _ => True) (fun s a hi _ => hstep s a hi) hs everyStep_true

theorem exec_of_step {I : σ → Prop} (hstep : ∀ s a, I s → I (step s a)) {s : σ} (hs : I s)
    (as : List α) : I (exec step s as) := (always_of_step hstep hs as).final

theorem exec_related {R : σ → σ → Prop} (hstep : ∀ s t a, R s t → R (step s a) (step t a)) {s t : σ}
    (h : R s t) (as : List α) : R (exec step s as) (exec step t as) := by
  induction as generalizing s t with
  | nil => exact h
  | cons a as ih => exact ih (hstep s t a h)

theorem exec_simulates {τ : Type*} {step' : τ → α → τ} {R : σ → τ → Prop} {as : List α}
    (hstep : ∀ s t, ∀ a ∈ as, R s t → R (step s a) (step' t a)) {s : σ} {t : τ} (h : R s t) :
    R (exec step s as) (exec step' t as) := by
  induction as generalizing s t with
  | nil => exact h
  | cons a as ih =>
    have hrest : ∀ s t, ∀ b ∈ as, R s t → R (step s b) (step' t b) := fun s t b hb =>
      hstep s t b (List.mem_cons_of_mem _ hb)
    exact ih hrest (hstep s t a List.mem_cons_self h)

/-- When a background invariant `I` is kept by every step and, under it, a step keeps `P` exactly
when it meets `G`, a run stays inside `P` exactly when all its steps meet `G`. -/
theorem always_iff_everyStep {I P : σ → Prop} {G : σ → α → Prop}
    (hI : ∀ s a, I s → I (step s a)) (hP : ∀ s a, I s → P s → (P (step s a) ↔ G s a))
    {s : σ} (hs : I s) (hp : P s) (as : List α) :
    Always step P s as ↔ EveryStep step G s as := by
  induction as generalizing s with
  | nil => exact ⟨fun _ => trivial, fun _ => hp⟩
  | cons a as ih =>
    constructor
    · rintro ⟨_, h⟩
      have hnext : P (step s a) := by
        cases as with
        | nil => exact h
        | cons b bs => exact h.1
      exact ⟨(hP s a hs hp).mp hnext, (ih (hI s a hs) hnext).mp h⟩
    · rintro ⟨hg, h⟩
      have hnext := (hP s a hs hp).mpr hg
      exact ⟨hp, (ih (hI s a hs) hnext).mpr h⟩

end Cimp.Execution
