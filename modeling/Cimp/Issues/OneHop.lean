import Cimp.Issues.Concurrent

namespace Cimp

open Execution

def PointersLocal (db : Db) : Prop :=
  ∀ i row c, db.issues.findOne i = some row → row.duplicateOf = some c →
    ∃ target, db.issues.findOne c = some target ∧ target.platform = row.platform

def OneHop (db : Db) : Prop :=
  ∀ i row c, db.issues.findOne i = some row → row.duplicateOf = some c →
    c ≠ i ∧ ∃ target, db.issues.findOne c = some target ∧ target.platform = row.platform ∧
      target.duplicateOf = none

theorem OneHop.pointersLocal {db : Db} (h : OneHop db) : PointersLocal db := by
  intro i row c hrow hc
  obtain ⟨_, target, htarget, hplatform, _⟩ := h i row c hrow hc
  exact ⟨target, htarget, hplatform⟩

namespace Request.Loads

variable {now : Time} {db : Db} {r : Request} {w : Write}

theorem pointer {c : Uuid} (h : Loads now db r w) (hlocal : PointersLocal db)
    (hc : w.issue.duplicateOf = some (some c)) :
    ∃ target, db.issues.findOne c = some target ∧ target.platform = w.issue.platform := by
  cases h with
  | @merge staff issueId dto ids duplicate canonical root hduplicate hcanonical hroot hplatform _ _ _ _ _ hop =>
    have hcroot : root.id = c := by simpa [MergeService.mergeWrite, MergeService.close] using hc
    subst hcroot
    refine ⟨root, hroot, ?_⟩
    rcases hop with rfl | hop
    · exact hplatform.symm
    · obtain ⟨target, htarget, htplatform⟩ := hlocal _ _ _ hcanonical hop
      rw [hroot] at htarget
      cases htarget
      exact htplatform.trans hplatform.symm
  | changeStatus =>
    simp only [IssuesService.statusWrite, IssueEntity.setStatus_duplicateOf] at hc
    split at hc <;> cases hc
  | changePriority => cases hc
  | changeAssignment => cases hc
  | webhook =>
    simp only [JiraInboundService.webhookWrite, IssueEntity.setStatus_duplicateOf] at hc
    split at hc <;> cases hc

end Request.Loads

namespace System

/-- The background invariant: pointers are local, and what a request in flight has read is still
there on the same platform. No step can break it. -/
structure Located (s : System) : Prop where
  pointers : PointersLocal s.db
  snapshots : ∀ slot f, s.inFlight slot = some f → PointersLocal f.snapshot
  rows : ∀ slot f, s.inFlight slot = some f → ∀ i row, f.snapshot.issues.findOne i = some row →
    ∃ stored, s.db.issues.findOne i = some stored ∧ stored.platform = row.platform

variable {cfg : Config} {s : System}

theorem Located.platform (h : s.Located) {slot : ℕ} {f : InFlight} (hf : s.inFlight slot = some f)
    {stored : Issue} (hstored : s.db.issues.findOne f.write.issue.id = some stored) :
    stored.platform = f.write.issue.platform := by
  obtain ⟨row, hrow, _, hplatform⟩ := f.loads.row
  obtain ⟨stored', hstored', hsame⟩ := h.rows slot f hf _ _ hrow
  rw [hstored] at hstored'
  cases hstored'
  exact hsame.trans hplatform.symm

theorem Located.target (h : s.Located) {slot : ℕ} {f : InFlight} (hf : s.inFlight slot = some f)
    {c : Uuid} (hc : f.write.issue.duplicateOf = some (some c)) :
    ∃ target, s.db.issues.findOne c = some target ∧ target.platform = f.write.issue.platform := by
  obtain ⟨target, htarget, hplatform⟩ := f.loads.pointer (h.snapshots slot f hf) hc
  obtain ⟨stored, hstored, hsame⟩ := h.rows slot f hf _ _ htarget
  exact ⟨stored, hstored, hsame.trans hplatform⟩

theorem pointer_cases {a : Action} {s' : System} (h : Effect s a s') {i c : Uuid} {row : Issue}
    (hrow : s'.db.issues.findOne i = some row) (hc : row.duplicateOf = some c) :
    (∃ old, s.db.issues.findOne i = some old ∧ old.duplicateOf = some c ∧ old.platform = row.platform) ∨
    ∃ f, s.saving a = some f ∧ f.write.issue.id = i ∧ f.write.issue.duplicateOf = some (some c) := by
  cases h with
  | idle _ _ hissues => exact .inl ⟨row, hissues ▸ hrow, hc, rfl⟩
  | intake _ _ hissues =>
    rw [Table.findOne_insert hissues] at hrow
    split at hrow
    · cases hrow
      cases hc
    · exact .inl ⟨row, hrow, hc, rfl⟩
  | @commit slot fails f hsaving _ _ hbody =>
    rw [Write.findOne_of_body hbody] at hrow
    split at hrow
    · rename_i hi
      obtain ⟨old, hold, rfl⟩ := Option.map_eq_some_iff.mp hrow
      rw [IssueEntity.written_duplicateOf] at hc
      cases hd : f.write.issue.duplicateOf with
      | none =>
        rw [hd] at hc
        exact .inl ⟨old, hold, hc, by simp⟩
      | some pointer =>
        rw [hd] at hc
        cases hc
        exact .inr ⟨f, hsaving, hi.symm, hd⟩
    · exact .inl ⟨row, hrow, hc, rfl⟩
  | mark _ _ _ _ _ hissues =>
    rw [hissues, Table.findOne_update] at hrow
    split at hrow
    · obtain ⟨old, hold, rfl⟩ := Option.map_eq_some_iff.mp hrow
      exact .inl ⟨old, hold, hc, rfl⟩
    · exact .inl ⟨row, hrow, hc, rfl⟩

theorem Located.step (h : s.Located) (a : Action) : (s.step cfg a).Located := by
  have heffect := s.step_effect cfg a
  constructor
  · intro i row c hrow hc
    rcases pointer_cases heffect hrow hc with ⟨old, hold, hoc, hplatform⟩ | ⟨f, hsaving, rfl, hfc⟩
    · obtain ⟨target, htarget, htplatform⟩ := h.pointers i old c hold hoc
      obtain ⟨stored, hstored, hsplatform⟩ := row_persists heffect htarget
      exact ⟨stored, hstored, (hsplatform.trans htplatform).trans hplatform⟩
    · have hpersists := fun target (htarget : s.db.issues.findOne c = some target) => row_persists heffect htarget
      cases heffect with
      | idle hs => simp [hs] at hsaving
      | intake hs => simp [hs] at hsaving
      | mark hs => simp [hs] at hsaving
      | commit hs _ hf hbody =>
        rw [hs] at hsaving
        cases hsaving
        obtain ⟨target, htarget, htplatform⟩ := h.target hf hfc
        obtain ⟨stored, hstored, hsplatform⟩ := hpersists target htarget
        refine ⟨stored, hstored, ?_⟩
        rw [Write.findOne_of_body hbody, if_pos rfl] at hrow
        obtain ⟨old, hold, rfl⟩ := Option.map_eq_some_iff.mp hrow
        rw [IssueEntity.written_platform, hsplatform, htplatform, h.platform hf hold]
  · intro slot f hf
    rcases inFlight_step cfg hf with hold | ⟨hsnapshot, _⟩
    · exact h.snapshots slot f hold
    · exact hsnapshot ▸ h.pointers
  · intro slot f hf i row hrow
    rcases inFlight_step cfg hf with hold | ⟨hsnapshot, _⟩
    · obtain ⟨stored, hstored, hplatform⟩ := h.rows slot f hold i row hrow
      obtain ⟨stored', hstored', hsame⟩ := row_persists heffect hstored
      exact ⟨stored', hstored', hsame.trans hplatform⟩
    · exact row_persists heffect (hsnapshot ▸ hrow)

/-- A merge that commits joins an issue nothing points at to another that points nowhere. -/
def JoinsRoots (s : System) (a : Action) : Prop :=
  ∀ f c, s.saving a = some f → f.write.issue.duplicateOf = some (some c) →
    c ≠ f.write.issue.id ∧
    (∀ i row, s.db.issues.findOne i = some row → row.duplicateOf ≠ some f.write.issue.id) ∧
      ∀ target, s.db.issues.findOne c = some target → target.duplicateOf = none

theorem oneHop_step (h : s.Located) (hhop : OneHop s.db) {a : Action} (hjoin : s.JoinsRoots a) :
    OneHop (s.step cfg a).db := by
  have heffect := s.step_effect cfg a
  have hlocal : PointersLocal (s.step cfg a).db := (h.step a).pointers
  intro i row c hrow hc
  obtain ⟨target, htarget, hplatform⟩ := hlocal i row c hrow hc
  have hne : c ≠ i := by
    rcases pointer_cases heffect hrow hc with ⟨old, hold, hoc, _⟩ | ⟨f, hsaving, rfl, hfc⟩
    · exact (hhop i old c hold hoc).1
    · exact (hjoin f c hsaving hfc).1
  refine ⟨hne, target, htarget, hplatform, ?_⟩
  by_contra hnone
  obtain ⟨d, hd⟩ := Option.ne_none_iff_exists'.mp hnone
  rcases pointer_cases heffect hrow hc with ⟨old, hold, hoc, _⟩ | ⟨f, hsaving, rfl, hfc⟩
  · obtain ⟨_, t, ht, _, htnone⟩ := hhop i old c hold hoc
    rcases pointer_cases heffect htarget hd with ⟨t', ht', htd, _⟩ | ⟨f, hsaving, rfl, hfd⟩
    · rw [ht] at ht'
      cases ht'
      rw [htnone] at htd
      cases htd
    · exact (hjoin f d hsaving hfd).2.1 i old hold hoc
  · rcases pointer_cases heffect htarget hd with ⟨t, ht, htd, _⟩ | ⟨f', hsaving', hid, _⟩
    · have := (hjoin f c hsaving hfc).2.2 t ht
      rw [this] at htd
      cases htd
    · rw [hsaving] at hsaving'
      cases hsaving'
      exact hne hid.symm

theorem joinsRoots_of_oneHop (h : s.Located) (hbefore : OneHop s.db) {a : Action} (hhop : OneHop (s.step cfg a).db) :
    s.JoinsRoots a := by
  intro f c hsaving hfc
  have heffect := s.step_effect cfg a
  cases heffect with
  | idle hs => simp [hs] at hsaving
  | intake hs => simp [hs] at hsaving
  | mark hs => simp [hs] at hsaving
  | commit hs _ hf hbody =>
    rw [hs] at hsaving
    cases hsaving
    obtain ⟨row, hrow, _⟩ := f.loads.row
    obtain ⟨stored, hstored, _⟩ := h.rows _ f hf _ _ hrow
    have hsaved : (s.step cfg a).db.issues.findOne f.write.issue.id =
        some (f.write.issue.written s.clock stored) := by
      rw [Write.findOne_of_body hbody, if_pos rfl, hstored]; rfl
    have hpoints : (f.write.issue.written s.clock stored).duplicateOf = some c := by
      rw [IssueEntity.written_duplicateOf, hfc]; rfl
    have hne : c ≠ f.write.issue.id := (hhop _ _ c hsaved hpoints).1
    refine ⟨hne, ?_, ?_⟩
    · intro i row hi hpoint
      have hother : i ≠ f.write.issue.id := ((hbefore i row _ hi hpoint).1).symm
      have hkept : (s.step cfg a).db.issues.findOne i = some row := by
        rw [Write.findOne_of_body hbody, if_neg hother, hi]
      obtain ⟨_, target, htarget, _, hnull⟩ := hhop i row _ hkept hpoint
      rw [hsaved] at htarget
      cases htarget
      rw [hpoints] at hnull
      cases hnull
    · intro target htarget
      obtain ⟨_, target', htarget', _, hnull⟩ := hhop _ _ c hsaved hpoints
      rw [Write.findOne_of_body hbody, if_neg hne, htarget] at htarget'
      cases htarget'
      exact hnull

theorem Located.start {db : Db} (h : PointersLocal db) (clock : Time) : (start db clock).Located :=
  { pointers := h
    snapshots := fun _ _ hf => by cases hf
    rows := fun _ _ hf => by cases hf }

/-- Whichever way loads and commits interleave, the duplicates stay one hop deep exactly when every
merge that commits joins roots. -/
theorem one_hop_iff_joinsRoots (cfg : Config) (db : Db) (clock : Time)
    (hstart : ∀ i row, db.issues.findOne i = some row → row.duplicateOf = none) (as : List Action) :
    Always (step cfg) (fun s => OneHop s.db) (start db clock) as ↔
      EveryStep (step cfg) JoinsRoots (start db clock) as := by
  have hhop : OneHop db := by
    intro i row c hrow hc
    rw [hstart i row hrow] at hc
    cases hc
  refine always_iff_everyStep (I := Located) (fun s a h => h.step a) ?_ ?_ hhop as
  · intro s a h hP
    exact ⟨fun hnext => joinsRoots_of_oneHop h hP hnext, fun hjoin => oneHop_step h hP hjoin⟩
  · exact Located.start hhop.pointersLocal clock

def chainOfMerges : List Action :=
  [Sample.intake "A", Sample.intake "B", Sample.intake "C"]
    ++ Sample.request (.merge Sample.admin "A" ⟨"B", 1⟩ ⟨"l1", "c1", "c2"⟩)
    ++ Sample.request (.merge Sample.admin "B" ⟨"C", 1⟩ ⟨"l2", "c3", "c4"⟩)

theorem chainOfMerges_not_oneHop :
    ¬ Always (step Sample.config) (fun s => OneHop s.db) (start .empty 0) chainOfMerges := by
  intro h
  have hfinal := h.final
  have hpoint : ∀ i c, ((exec (step Sample.config) (start .empty 0) chainOfMerges).db.issues.findOne i).bind
      Issue.duplicateOf = some c → ∃ row, (exec (step Sample.config) (start .empty 0)
        chainOfMerges).db.issues.findOne i = some row ∧ row.duplicateOf = some c := fun i c hi =>
    Option.bind_eq_some_iff.mp hi
  obtain ⟨a, ha, hab⟩ := hpoint "A" "B" (by decide)
  obtain ⟨b, hb, hbc⟩ := hpoint "B" "C" (by decide)
  obtain ⟨_, target, htarget, _, hnull⟩ := hfinal "A" a "B" ha hab
  rw [hb] at htarget
  cases htarget
  rw [hbc] at hnull
  cases hnull

theorem one_hop_iff_joinsRoots_chain :
    ¬ EveryStep (step Sample.config) JoinsRoots (start .empty 0) chainOfMerges := fun h =>
  chainOfMerges_not_oneHop
    ((one_hop_iff_joinsRoots Sample.config .empty 0 (fun _ _ h => by cases h) chainOfMerges).mpr h)

theorem merges_reach_a_chain :
    ¬ ∀ (cfg : Config) (db : Db) (clock : Time) (as : List Action),
      (∀ i row, db.issues.findOne i = some row → row.duplicateOf = none) →
        Always (step cfg) (fun s => OneHop s.db) (start db clock) as := fun h =>
  chainOfMerges_not_oneHop (h Sample.config .empty 0 chainOfMerges fun _ _ h => by cases h)

/-- The guard against a merge of an issue into itself does not know the same id in the other case. -/
example : ((exec (step Sample.config) (start .empty 0) (Sample.intake "A" ::
    Sample.request (.merge Sample.admin "A" ⟨⟨"a", "A", by decide⟩, 1⟩ ⟨"link", "comment-1", "comment-2"⟩))).db.issues.findOne
      "A").bind Issue.duplicateOf = some "A" := by decide

end System

end Cimp
