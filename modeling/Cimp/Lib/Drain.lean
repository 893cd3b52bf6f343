import Cimp.Lib.Execution
import Mathlib.Data.List.Flatten
import Mathlib.Data.List.Nodup

namespace Cimp.Drain

open Execution

universe u v w

variable {ρ : Type u} {κ : Type v} {ν : Type w} [DecidableEq κ] (key : ρ → κ)

/-- A job works off the rows that it has loaded, each with what was noted of it then. -/
structure Job (ρ : Type u) (ν : Type w) where
  done : List (ρ × ν)
  pending : List (ρ × ν)

def Job.rows (j : Job ρ ν) : List ρ := (j.done ++ j.pending).map Prod.fst

/-- `log` is what the jobs have handled, and `inserted` every row there ever was. -/
structure State (ρ : Type u) (ν : Type w) where
  rows : List ρ
  jobs : List (Job ρ ν)
  log : List (ρ × ν)
  inserted : List ρ

def State.empty : State ρ ν := ⟨[], [], [], []⟩

inductive Action (ρ : Type u) (ν : Type w)
  | insert (r : ρ)
  | load (p : ρ → Bool) (note : ρ → ν)
  | handle (job : ℕ)
  | finish (job : ℕ)
  | abandon (job : ℕ)

namespace State

variable {key} (s : State ρ ν)

def load (p : ρ → Bool) (note : ρ → ν) : State ρ ν :=
  if s.rows.filter p = [] then s
  else { s with jobs := s.jobs ++ [⟨[], (s.rows.filter p).map fun r => (r, note r)⟩] }

def handle (i : ℕ) (done : List (ρ × ν)) (e : ρ × ν) (pending : List (ρ × ν)) : State ρ ν :=
  { s with jobs := s.jobs.set i ⟨done ++ [e], pending⟩, log := s.log ++ [e] }

def leave (i : ℕ) : State ρ ν := { s with jobs := s.jobs.eraseIdx i }

variable (key)

/-- A key is never given twice. -/
def insert (r : ρ) : State ρ ν :=
  if key r ∈ s.inserted.map key then s else { s with rows := s.rows ++ [r], inserted := s.inserted ++ [r] }

/-- `DELETE ... WHERE key IN (...)`, over what was loaded. -/
def finish (i : ℕ) (j : Job ρ ν) : State ρ ν :=
  { s.leave i with rows := s.rows.filter fun r => key r ∉ j.rows.map key }

def step (s : State ρ ν) : Action ρ ν → State ρ ν
  | .insert r => s.insert key r
  | .load p note => s.load p note
  | .handle i =>
    match s.jobs[i]? with
    | some ⟨done, e :: pending⟩ => s.handle i done e pending
    | _ => s
  | .finish i =>
    match s.jobs[i]? with
    | some ⟨done, []⟩ => s.finish key i ⟨done, []⟩
    | _ => s
  | .abandon i => s.leave i

/-- A row that is gone was handled. -/
def Kept (s : State ρ ν) : Prop := ∀ r ∈ s.inserted, r ∈ s.rows ∨ ∃ n, (r, n) ∈ s.log

structure Inv (s : State ρ ν) : Prop where
  keys : (s.inserted.map key).Nodup
  rows : s.rows.Sublist s.inserted
  loaded : ∀ j ∈ s.jobs, ∀ r ∈ j.rows, r ∈ s.inserted
  done : ∀ j ∈ s.jobs, ∀ e ∈ j.done, e ∈ s.log
  logged : ∀ e ∈ s.log, e.1 ∈ s.inserted
  kept : s.Kept

variable {key} {s}

omit [DecidableEq κ] in
theorem empty_inv : Inv key (State.empty : State ρ ν) := by
  constructor
  · exact List.nodup_nil
  · exact List.nil_sublist _
  · intro j hj
    cases hj
  · intro j hj
    cases hj
  · intro e he
    cases he
  · intro r hr
    cases hr

theorem Inv.insert (hs : Inv key s) (r : ρ) : Inv key (s.insert key r) := by
  unfold State.insert
  split
  · exact hs
  · rename_i hfresh
    constructor
    · rw [List.map_append, List.map_singleton]
      apply List.nodup_append.mpr
      refine ⟨hs.keys, List.nodup_singleton _, ?_⟩
      intro k hk k' hk' heq
      rw [heq, List.mem_singleton.mp hk'] at hk
      exact hfresh hk
    · exact hs.rows.append (List.Sublist.refl _)
    · exact fun j hj q hq => List.mem_append_left _ (hs.loaded j hj q hq)
    · exact hs.done
    · exact fun e he => List.mem_append_left _ (hs.logged e he)
    · intro q hq
      obtain hold | rfl := List.mem_append.mp hq |>.imp_right List.mem_singleton.mp
      · exact (hs.kept q hold).imp_left (List.mem_append_left _)
      · exact Or.inl (List.mem_append_right _ List.mem_cons_self)

omit [DecidableEq κ] in
theorem Inv.load (hs : Inv key s) (p : ρ → Bool) (note : ρ → ν) : Inv key (s.load p note) := by
  unfold State.load
  split
  · exact hs
  · constructor
    · exact hs.keys
    · exact hs.rows
    · intro j hj r hr
      obtain hold | rfl := List.mem_append.mp hj |>.imp_right List.mem_singleton.mp
      · exact hs.loaded j hold r hr
      · simp only [Job.rows, List.nil_append, List.map_map, List.mem_map, Function.comp_apply] at hr
        obtain ⟨q, hq, rfl⟩ := hr
        exact hs.rows.subset (List.mem_of_mem_filter hq)
    · intro j hj e he
      obtain hold | rfl := List.mem_append.mp hj |>.imp_right List.mem_singleton.mp
      · exact hs.done j hold e he
      · cases he
    · exact hs.logged
    · exact hs.kept

theorem mem_set {i : ℕ} {l : List (Job ρ ν)} {j j' : Job ρ ν} (h : j' ∈ l.set i j) : j' ∈ l ∨ j' = j :=
  List.mem_or_eq_of_mem_set h

theorem rows_handled (done : List (ρ × ν)) (e : ρ × ν) (pending : List (ρ × ν)) :
    (⟨done ++ [e], pending⟩ : Job ρ ν).rows = (⟨done, e :: pending⟩ : Job ρ ν).rows := by
  simp [Job.rows]

omit [DecidableEq κ] in
theorem Inv.handle (hs : Inv key s) {i : ℕ} {done pending : List (ρ × ν)} {e : ρ × ν}
    (hjob : s.jobs[i]? = some ⟨done, e :: pending⟩) : Inv key (s.handle i done e pending) := by
  have hmem := List.mem_of_getElem? hjob
  have he : e.1 ∈ s.inserted := by
    apply hs.loaded _ hmem
    simp [Job.rows]
  constructor
  · exact hs.keys
  · exact hs.rows
  · intro j hj r hr
    obtain hold | rfl := mem_set hj
    · exact hs.loaded j hold r hr
    · exact hs.loaded _ hmem r (rows_handled done e pending ▸ hr)
  · intro j hj f hf
    obtain hold | rfl := mem_set hj
    · exact List.mem_append_left _ (hs.done j hold f hf)
    · exact List.mem_append.mpr ((List.mem_append.mp hf).imp_left (hs.done _ hmem f))
  · intro f hf
    obtain hold | rfl := List.mem_append.mp hf |>.imp_right List.mem_singleton.mp
    · exact hs.logged f hold
    · exact he
  · intro r hr
    obtain hrow | ⟨n, hn⟩ := hs.kept r hr
    · exact Or.inl hrow
    · exact Or.inr ⟨n, List.mem_append_left _ hn⟩

omit [DecidableEq κ] in
theorem Inv.leave (hs : Inv key s) (i : ℕ) : Inv key (s.leave i) :=
  ⟨hs.keys, hs.rows, fun j hj => hs.loaded j (List.mem_of_mem_eraseIdx hj),
    fun j hj => hs.done j (List.mem_of_mem_eraseIdx hj), hs.logged, hs.kept⟩

theorem Inv.finish (hs : Inv key s) {i : ℕ} {done : List (ρ × ν)} (hjob : s.jobs[i]? = some ⟨done, []⟩) :
    Inv key (s.finish key i ⟨done, []⟩) := by
  have hmem := List.mem_of_getElem? hjob
  have hleave := hs.leave i
  refine ⟨hs.keys, List.filter_sublist.trans hs.rows, hleave.loaded, hleave.done, hs.logged, ?_⟩
  intro r hr
  obtain hrow | hlog := hs.kept r hr
  · by_cases hgone : key r ∈ (⟨done, []⟩ : Job ρ ν).rows.map key
    · obtain ⟨q, hq, hkey⟩ := List.mem_map.mp hgone
      -- the rows of the job were inserted, so that the key is that of one row only
      have heq := List.inj_on_of_nodup_map hs.keys (hs.loaded _ hmem q hq) hr hkey
      subst heq
      obtain ⟨e, he, rfl⟩ := List.mem_map.mp hq
      rw [List.append_nil] at he
      exact Or.inr ⟨e.2, hs.done _ hmem e he⟩
    · exact Or.inl (List.mem_filter.mpr ⟨hrow, decide_eq_true hgone⟩)
  · exact Or.inr hlog

theorem step_inv (s : State ρ ν) (a : Action ρ ν) (hs : Inv key s) : Inv key (step key s a) := by
  cases a with
  | insert r => exact hs.insert r
  | load p note => exact hs.load p note
  | handle i =>
    simp only [step]
    split
    · exact hs.handle ‹_›
    · exact hs
  | finish i =>
    simp only [step]
    split
    · exact hs.finish ‹_›
    · exact hs
  | abandon i => exact hs.leave i

/-- The row was loaded with this note. -/
def Noted (s : State ρ ν) (e : ρ × ν) : Prop := e ∈ s.log ∨ ∃ j ∈ s.jobs, e ∈ j.done ++ j.pending

theorem noted_insert (s : State ρ ν) (r : ρ) (e : ρ × ν) : Noted (s.insert key r) e ↔ Noted s e := by
  unfold State.insert
  split <;> rfl

omit [DecidableEq κ] in
theorem noted_load {p : ρ → Bool} {note : ρ → ν} {e : ρ × ν} (h : Noted (s.load p note) e) :
    Noted s e ∨ e.1 ∈ s.rows ∧ p e.1 = true ∧ e.2 = note e.1 := by
  unfold State.load at h
  split at h
  · exact Or.inl h
  · obtain hlog | ⟨j, hj, he⟩ := h
    · exact Or.inl (Or.inl hlog)
    · obtain hold | rfl := List.mem_append.mp hj |>.imp_right List.mem_singleton.mp
      · exact Or.inl (Or.inr ⟨j, hold, he⟩)
      · obtain ⟨r, hr, rfl⟩ := List.mem_map.mp he
        obtain ⟨hrow, hp⟩ := List.mem_filter.mp hr
        exact Or.inr ⟨hrow, hp, rfl⟩

/-- What the steps of a job leave as it was. -/
structure Worked (s s' : State ρ ν) : Prop where
  inserted : s'.inserted = s.inserted
  rows : s'.rows.Sublist s.rows
  noted : ∀ e, Noted s' e → Noted s e

theorem worked_self (s : State ρ ν) : Worked s s := ⟨rfl, List.Sublist.refl _, fun _ => id⟩

theorem worked_handle (s : State ρ ν) (i : ℕ) : Worked s (step key s (.handle i)) := by
  simp only [step]
  split
  · rename_i done f pending hjob
    have hmem := List.mem_of_getElem? hjob
    refine ⟨rfl, List.Sublist.refl _, fun e he => ?_⟩
    obtain hlog | ⟨j, hj, hentry⟩ := he
    · obtain hold | rfl := List.mem_append.mp hlog |>.imp_right List.mem_singleton.mp
      · exact Or.inl hold
      · exact Or.inr ⟨_, hmem, List.mem_append_right _ List.mem_cons_self⟩
    · obtain hold | rfl := mem_set hj
      · exact Or.inr ⟨j, hold, hentry⟩
      · rw [List.append_assoc, List.singleton_append] at hentry
        exact Or.inr ⟨_, hmem, hentry⟩
  · exact worked_self s

theorem worked_leave (s : State ρ ν) (i : ℕ) {rows : List ρ} (h : rows.Sublist s.rows) :
    Worked s { s.leave i with rows } := by
  refine ⟨rfl, h, fun e he => ?_⟩
  exact he.imp_right fun ⟨j, hj, hentry⟩ => ⟨j, List.mem_of_mem_eraseIdx hj, hentry⟩

theorem worked_finish (s : State ρ ν) (i : ℕ) : Worked s (step key s (.finish i)) := by
  simp only [step]
  split
  · exact worked_leave s i List.filter_sublist
  · exact worked_self s

theorem worked_abandon (s : State ρ ν) (i : ℕ) : Worked s (step key s (.abandon i)) := worked_leave s i (List.Sublist.refl _)

/-- No row is loaded that another job holds, and no job is given up once it has handled one. -/
def Undisturbed (s : State ρ ν) : Action ρ ν → Prop
  | .load p _ => ∀ j ∈ s.jobs, ∀ r ∈ j.rows, p r = false
  | .abandon i => ∀ j ∈ s.jobs[i]?, j.done = []
  | _ => True

def pendingRows (jobs : List (Job ρ ν)) : List ρ := jobs.flatMap fun j => j.pending.map Prod.fst

structure Once (s : State ρ ν) : Prop where
  once : (s.log.map Prod.fst ++ pendingRows s.jobs).Nodup
  settled : ∀ r ∈ s.rows, r ∈ s.log.map Prod.fst → ∃ j ∈ s.jobs, r ∈ j.done.map Prod.fst

theorem empty_once : Once (State.empty : State ρ ν) := by
  constructor
  · exact List.nodup_nil
  · intro r hr
    cases hr

theorem Once.insert (hs : Once s) (hinv : Inv key s) (r : ρ) : Once (s.insert key r) := by
  unfold State.insert
  split
  · exact hs
  · rename_i hfresh
    refine ⟨hs.once, fun q hq hlog => ?_⟩
    obtain hold | rfl := List.mem_append.mp hq |>.imp_right List.mem_singleton.mp
    · exact hs.settled q hold hlog
    · obtain ⟨e, he, rfl⟩ := List.mem_map.mp hlog
      exact absurd (List.mem_map_of_mem (hinv.logged e he)) hfresh

omit [DecidableEq κ] in
theorem Once.load (hs : Once s) (hinv : Inv key s) {p : ρ → Bool} (note : ρ → ν)
    (halone : ∀ j ∈ s.jobs, ∀ r ∈ j.rows, p r = false) : Once (s.load p note) := by
  unfold State.load
  split
  · exact hs
  · have hnew : pendingRows (s.jobs ++ [⟨[], (s.rows.filter p).map fun r => (r, note r)⟩]) =
        pendingRows s.jobs ++ s.rows.filter p := by
      simp [pendingRows, List.flatMap_append, Function.comp_def]
    constructor
    · show (s.log.map Prod.fst ++ pendingRows (s.jobs ++ _)).Nodup
      rw [hnew, ← List.append_assoc]
      apply List.nodup_append.mpr
      refine ⟨hs.once, (List.Nodup.of_map key (hinv.keys.sublist (hinv.rows.map key))).filter _, ?_⟩
      rintro r hr q hq rfl
      obtain ⟨hrow, hp⟩ := List.mem_filter.mp hq
      obtain hlog | hpending := List.mem_append.mp hr
      · obtain ⟨j, hj, hdone⟩ := hs.settled r hrow hlog
        have hheld := halone j hj r (by
          rw [Job.rows, List.map_append]
          exact List.mem_append_left _ hdone)
        rw [hheld] at hp
        cases hp
      · obtain ⟨j, hj, hrest⟩ := List.mem_flatMap.mp hpending
        have hheld := halone j hj r (by
          rw [Job.rows, List.map_append]
          exact List.mem_append_right _ hrest)
        rw [hheld] at hp
        cases hp
    · intro r hr hlog
      obtain ⟨j, hj, hdone⟩ := hs.settled r hr hlog
      exact ⟨j, List.mem_append_left _ hj, hdone⟩

theorem pendingRows_handled {jobs : List (Job ρ ν)} {i : ℕ} {done pending : List (ρ × ν)} {e : ρ × ν}
    (h : jobs[i]? = some ⟨done, e :: pending⟩) :
    (e.1 :: pendingRows (jobs.set i ⟨done ++ [e], pending⟩)).Perm (pendingRows jobs) := by
  induction jobs generalizing i with
  | nil => cases h
  | cons j jobs ih =>
    cases i with
    | zero =>
      cases h
      exact List.Perm.refl _
    | succ i =>
      rw [List.getElem?_cons_succ] at h
      rw [List.set_cons_succ, pendingRows, List.flatMap_cons]
      exact List.perm_middle.symm.trans ((ih h).append_left _)

theorem Once.handle (hs : Once s) {i : ℕ} {done pending : List (ρ × ν)} {e : ρ × ν}
    (hjob : s.jobs[i]? = some ⟨done, e :: pending⟩) : Once (s.handle i done e pending) := by
  obtain ⟨hlt, -⟩ := List.getElem?_eq_some_iff.mp hjob
  constructor
  · have hperm := (pendingRows_handled hjob).append_left (s.log.map Prod.fst)
    show ((s.log ++ [e]).map Prod.fst ++ _).Nodup
    rw [List.map_append, List.map_singleton, List.append_assoc, List.singleton_append]
    exact hperm.nodup_iff.mpr hs.once
  · intro r hr hlog
    change r ∈ (s.log ++ [e]).map Prod.fst at hlog
    have hself : (⟨done ++ [e], pending⟩ : Job ρ ν) ∈ s.jobs.set i ⟨done ++ [e], pending⟩ := List.mem_set hlt _
    rw [List.map_append, List.map_singleton] at hlog
    obtain hold | hnew := List.mem_append.mp hlog
    · obtain ⟨j, hj, hdone⟩ := hs.settled r hr hold
      obtain ⟨k, hk⟩ := List.mem_iff_getElem?.mp hj
      by_cases hki : i = k
      · subst hki
        rw [hjob] at hk
        cases hk
        refine ⟨_, hself, ?_⟩
        rw [List.map_append]
        exact List.mem_append_left _ hdone
      · exact ⟨j, List.mem_of_getElem? ((List.getElem?_set_ne hki).trans hk), hdone⟩
    · refine ⟨_, hself, ?_⟩
      rw [List.map_append]
      exact List.mem_append_right _ hnew

theorem Once.leave (hs : Once s) {i : ℕ} {rows : List ρ} (hrows : rows.Sublist s.rows)
    (hleft : ∀ j ∈ s.jobs[i]?, ∀ r ∈ rows, r ∉ j.done.map Prod.fst) : Once { s.leave i with rows } := by
  constructor
  · have hsub : (pendingRows (s.jobs.eraseIdx i)).Sublist (pendingRows s.jobs) :=
      (List.eraseIdx_sublist _ _).flatMap _
    exact hs.once.sublist (hsub.append_left _)
  · intro r hr hlog
    obtain ⟨j, hj, hdone⟩ := hs.settled r (hrows.subset hr) hlog
    obtain ⟨k, hk⟩ := List.mem_iff_getElem?.mp hj
    refine ⟨j, List.mem_eraseIdx_iff_getElem?.mpr ⟨k, ?_, hk⟩, hdone⟩
    rintro rfl
    exact hleft j hk r hr hdone

theorem step_once (s : State ρ ν) (a : Action ρ ν) (hs : Inv key s ∧ Once s) (ha : Undisturbed s a) :
    Inv key (step key s a) ∧ Once (step key s a) := by
  obtain ⟨hinv, hs⟩ := hs
  refine ⟨step_inv s a hinv, ?_⟩
  cases a with
  | insert r => exact hs.insert hinv r
  | load p note => exact hs.load hinv note ha
  | handle i =>
    simp only [step]
    split
    · exact hs.handle ‹_›
    · exact hs
  | finish i =>
    simp only [step]
    split
    · rename_i done hjob
      refine hs.leave List.filter_sublist fun j hj r hr hdone => ?_
      rw [Option.mem_def, hjob] at hj
      cases hj
      have hgone := of_decide_eq_true (List.mem_filter.mp hr).2
      apply hgone
      rw [Job.rows, List.append_nil]
      exact List.mem_map_of_mem hdone
    · exact hs
  | abandon i =>
    apply hs.leave (List.Sublist.refl _)
    intro j hj r _ hdone
    rw [ha j hj] at hdone
    cases hdone

end State

end Cimp.Drain
