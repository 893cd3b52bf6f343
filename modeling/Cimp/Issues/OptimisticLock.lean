import Cimp.Issues.Concurrent

namespace Cimp

open Execution

/-- The columns of an issue that requests and sweeps write; the version and the update date are the
ORM's own. -/
def Issue.columns : List (Σ β : Type, Issue → β) :=
  [⟨_, fun i => i.status⟩, ⟨_, fun i => i.priority⟩, ⟨_, Issue.assignee⟩, ⟨_, Issue.duplicateOf⟩,
    ⟨_, fun i => i.slaStartedAt⟩, ⟨_, fun i => i.slaBreachedAt⟩, ⟨_, fun i => i.resolvedAt⟩,
    ⟨_, fun i => i.closedAt⟩, ⟨_, fun i => i.jiraIssueKey⟩, ⟨_, fun i => i.jiraSyncStatus⟩,
    ⟨_, fun i => i.publiclyVisible⟩, ⟨_, fun i => i.publicTitle⟩, ⟨_, fun i => i.description⟩,
    ⟨_, fun i => i.context⟩, ⟨_, fun i => i.referenceNo⟩, ⟨_, fun i => i.createdAt⟩]

namespace Request

def change : Request → Option (Uuid × ℕ)
  | .changeStatus _ issueId dto => some (issueId, dto.version)
  | .changePriority _ issueId dto => some (issueId, dto.version)
  | .changeAssignment _ issueId dto => some (issueId, dto.version)
  | _ => none

def reassigns (assignee : Option Uuid) : Request → Bool
  | .changeAssignment _ _ dto => dto.assigneeId ≠ assignee
  | _ => true

theorem canTransition_ne {old target : IssueStatus} (h : canTransition old target = true) :
    old ≠ target := by
  rintro rfl
  revert h
  cases old <;> decide

namespace Loads

variable {now : Time} {db : Db} {r : Request} {w : Write}

theorem change {i : Uuid} {v : ℕ} (h : Loads now db r w) (hchange : r.change = some (i, v)) :
    w.issue.id = i ∧ w.issue.version = v := by
  cases h with
  | merge => cases hchange
  | changeStatus hrow hversion _ =>
    cases hchange
    have hkey := Table.findOne_key hrow
    simp only [IssuesService.statusWrite, IssueEntity.setStatus_id, IssueEntity.setStatus_version]
    exact ⟨hkey, hversion⟩
  | changePriority hrow hversion _ =>
    cases hchange
    have hkey := Table.findOne_key hrow
    exact ⟨hkey, hversion⟩
  | changeAssignment hrow hversion =>
    cases hchange
    have hkey := Table.findOne_key hrow
    exact ⟨hkey, hversion⟩
  | webhook => cases hchange

theorem assign_ne {row : Issue} (h : Loads now db r w) (hchange : r.change.isSome)
    (hrow : db.issues.findOne w.issue.id = some row) (hassignee : r.reassigns row.assignee) :
    w.issue.assign row ≠ row := by
  intro heq
  cases h with
  | merge => cases hchange
  | @changeStatus staff issueId dto loaded hloaded _ htransition =>
    simp only [IssuesService.statusWrite, IssueEntity.setStatus_id] at hrow heq
    rw [show (loaded.toEntity { assignee := true }).id = loaded.id from rfl,
      Table.findOne_self hloaded] at hrow
    cases hrow
    have hstatus := congrArg (fun i => i.status) heq
    simp only [IssueEntity.assign_columns, IssueEntity.setStatus_status] at hstatus
    exact canTransition_ne htransition hstatus.symm
  | @changePriority staff issueId dto loaded hloaded _ hdiffers =>
    have hself := Table.findOne_self hloaded
    change db.issues.findOne loaded.id = some row at hrow
    rw [hself] at hrow
    cases hrow
    exact hdiffers (congrArg (fun i => i.priority) heq).symm
  | @changeAssignment staff issueId dto loaded hloaded _ =>
    have hassigned := congrArg Issue.assignee heq
    simp only [reassigns, decide_eq_true_eq] at hassignee
    exact hassignee hassigned
  | webhook => cases hchange

end Loads

end Request

namespace System

def succeeded (s : System) (i : Uuid) (v : ℕ) : ℕ :=
  (s.committed.filter fun f => f.request.change = some (i, v)).length

def ChangedOnce (s : System) : Prop := ∀ i v, s.succeeded i v ≤ 1

def NoLostUpdate (cfg : Config) (s : System) (a : Action) : Prop :=
  ∀ f ∈ s.saving a, f.request.change.isSome → ∀ i, f.write.issue.id = i →
    ∀ loaded ∈ f.snapshot.issues.findOne i, ∀ stored ∈ s.db.issues.findOne i,
      ∀ saved ∈ (s.step cfg a).db.issues.findOne i, ∀ column ∈ Issue.columns,
        column.2 stored ≠ column.2 loaded → column.2 saved ≠ column.2 loaded

/-- A change that commits finds the version it was loaded at, and an assignment names another
assignee than the issue has. -/
def FreshSave (s : System) (a : Action) : Prop :=
  ∀ f ∈ s.saving a, f.request.change.isSome → ∀ stored ∈ s.db.issues.findOne f.write.issue.id,
    stored.version = f.write.issue.version ∧ f.request.reassigns stored.assignee

instance (s : System) (a : Action) : Decidable (s.FreshSave a) := by unfold FreshSave; infer_instance

variable {cfg : Config} {s s' : System} {a : Action}

theorem version_step (h : Effect s a s') {i : Uuid} {row : Issue}
    (hrow : s.db.issues.findOne i = some row) :
    ∃ row', s'.db.issues.findOne i = some row' ∧ row.version ≤ row'.version ∧
      (row'.version = row.version → row' = row) := by
  cases h with
  | idle _ _ hissues => exact ⟨row, hissues ▸ hrow, le_rfl, fun _ => rfl⟩
  | intake _ _ hissues =>
    refine ⟨row, ?_, le_rfl, fun _ => rfl⟩
    rw [Table.findOne_insert hissues, if_neg, hrow]
    rintro rfl
    rw [Table.insert_fresh hissues] at hrow
    cases hrow
  | commit _ _ _ hbody =>
    rw [Write.findOne_of_body hbody, hrow]
    split
    · exact ⟨_, rfl, IssueEntity.version_le_written _ _ _, IssueEntity.written_of_version_eq⟩
    · exact ⟨row, rfl, le_rfl, fun _ => rfl⟩
  | mark _ _ _ _ _ hissues =>
    rw [hissues, Table.findOne_update, hrow]
    split
    · refine ⟨_, rfl, Nat.le_succ _, fun hv => ?_⟩
      simp [SlaEscalationService.marked] at hv
    · exact ⟨row, rfl, le_rfl, fun _ => rfl⟩

/-- What has been read is still there, unless its version has moved on; and the version of every
change that has committed has. -/
structure Versioned (s : System) : Prop where
  inFlight : ∀ slot f, s.inFlight slot = some f → ∀ i row, f.snapshot.issues.findOne i = some row →
    ∃ stored, s.db.issues.findOne i = some stored ∧ row.version ≤ stored.version ∧
      (stored.version = row.version → stored = row)
  committed : ∀ f ∈ s.committed, ∀ i v, f.request.change = some (i, v) →
    ∃ stored, s.db.issues.findOne i = some stored ∧ v < stored.version

theorem Versioned.stored (h : s.Versioned) {slot : ℕ} {f : InFlight} (hf : s.inFlight slot = some f) :
    ∃ loaded stored, f.snapshot.issues.findOne f.write.issue.id = some loaded ∧
      s.db.issues.findOne f.write.issue.id = some stored ∧
      (stored.version = f.write.issue.version → stored = loaded) := by
  obtain ⟨loaded, hloaded, hversion, _⟩ := f.loads.row
  obtain ⟨stored, hstored, _, hsame⟩ := h.inFlight slot f hf _ loaded hloaded
  exact ⟨loaded, stored, hloaded, hstored, fun hv => hsame (hv.trans hversion)⟩

theorem Versioned.step (h : s.Versioned) (hfresh : s.FreshSave a) : (s.step cfg a).Versioned := by
  have heffect := s.step_effect cfg a
  constructor
  · intro slot f hf i row hrow
    rcases inFlight_step cfg hf with hold | ⟨hsnapshot, _⟩
    · obtain ⟨stored, hstored, hle, hsame⟩ := h.inFlight slot f hold i row hrow
      obtain ⟨stored', hstored', hle', hsame'⟩ := version_step heffect hstored
      refine ⟨stored', hstored', hle.trans hle', fun hv => ?_⟩
      have hmid : stored.version = row.version := by omega
      rw [hsame' (hv.trans hmid.symm), hsame hmid]
    · rw [hsnapshot] at hrow
      exact version_step heffect hrow
  · have hkept : ∀ f ∈ s.committed, ∀ i v, f.request.change = some (i, v) →
        ∃ stored, (s.step cfg a).db.issues.findOne i = some stored ∧ v < stored.version := by
      intro f hf i v hchange
      obtain ⟨stored, hstored, hlt⟩ := h.committed f hf i v hchange
      obtain ⟨stored', hstored', hle, _⟩ := version_step heffect hstored
      exact ⟨stored', hstored', hlt.trans_le hle⟩
    cases heffect with
    | idle _ _ _ _ hcommitted => rwa [hcommitted]
    | intake _ _ _ _ _ _ hcommitted => rwa [hcommitted]
    | mark _ _ _ _ _ _ _ _ hcommitted => rwa [hcommitted]
    | @commit slot fails f hsaving _ hf hbody hcommitted =>
      rw [hcommitted]
      intro g hg i v hchange
      rcases List.mem_append.mp hg with hg | hg
      · exact hkept g hg i v hchange
      · obtain rfl := List.mem_singleton.mp hg
        obtain ⟨hid, hversion⟩ := g.loads.change hchange
        obtain ⟨loaded, stored, hloaded, hstored, hsame⟩ := h.stored hf
        have hsome : g.request.change.isSome := by rw [hchange]; rfl
        obtain ⟨hcurrent, hassignee⟩ := hfresh g hsaving hsome stored hstored
        have hwrites : g.write.issue.assign stored ≠ stored := by
          refine g.loads.assign_ne hsome ?_ hassignee
          rw [hloaded, hsame hcurrent]
        refine ⟨_, by rw [Write.findOne_of_body hbody, if_pos hid.symm, ← hid, hstored]; rfl, ?_⟩
        rw [IssueEntity.written_version, if_neg hwrites]
        omega

theorem changedOnce_step (h : s.Versioned) (honce : s.ChangedOnce) (hfresh : s.FreshSave a) :
    (s.step cfg a).ChangedOnce := by
  intro i v
  have hbefore := honce i v
  have heffect := s.step_effect cfg a
  cases heffect with
  | idle _ _ _ _ hcommitted => rwa [succeeded, hcommitted]
  | intake _ _ _ _ _ _ hcommitted => rwa [succeeded, hcommitted]
  | mark _ _ _ _ _ _ _ _ hcommitted => rwa [succeeded, hcommitted]
  | @commit slot fails f hsaving _ hf _ hcommitted =>
    rw [succeeded, hcommitted, List.filter_append, List.length_append]
    by_cases hchange : f.request.change = some (i, v)
    · -- an earlier success at this version would have moved the row past it
      have hnone : s.succeeded i v = 0 := by
        rw [succeeded, List.length_eq_zero_iff, List.filter_eq_nil_iff]
        intro g hg hgchange
        obtain ⟨stored, hstored, hlt⟩ := h.committed g hg i v (of_decide_eq_true hgchange)
        obtain ⟨hid, hversion⟩ := f.loads.change hchange
        have hsome : f.request.change.isSome := by rw [hchange]; rfl
        obtain ⟨hcurrent, _⟩ := hfresh f hsaving hsome stored (hid ▸ hstored)
        omega
      rw [succeeded] at hnone
      simp [hnone, hchange]
    · rw [succeeded] at hbefore
      simpa [hchange] using hbefore

theorem noLostUpdate_of_freshSave (h : s.Versioned) (hfresh : s.FreshSave a) : s.NoLostUpdate cfg a := by
  rintro f hsaving hsome i rfl loaded hloaded stored hstored saved _ column _ hmoved
  have heffect := s.step_effect cfg a
  cases heffect with
  | idle hs => simp [hs] at hsaving
  | intake hs => simp [hs] at hsaving
  | mark hs => simp [hs] at hsaving
  | commit hs _ hf _ =>
    rw [hs] at hsaving
    cases hsaving
    obtain ⟨loaded', stored', hloaded', hstored', hsame⟩ := h.stored hf
    rw [Option.mem_def, hloaded'] at hloaded
    rw [Option.mem_def, hstored'] at hstored
    cases hloaded
    cases hstored
    rw [hsame (hfresh f hs hsome stored hstored').1] at hmoved
    exact absurd rfl hmoved

theorem Versioned.start (db : Db) (clock : Time) : (start db clock).Versioned :=
  { inFlight := fun _ _ hf => by cases hf
    committed := fun _ hf => by cases hf }

/-- A run in which every change is saved over the version it was loaded at changes no version twice
and loses no update, whatever the other requests and the sweeps do in between. -/
theorem no_update_lost_of_freshSave (cfg : Config) (db : Db) (clock : Time) (as : List Action)
    (h : EveryStep (step cfg) FreshSave (start db clock) as) :
    Always (step cfg) ChangedOnce (start db clock) as ∧
      EveryStep (step cfg) (NoLostUpdate cfg) (start db clock) as := by
  have hinv : Always (step cfg) (fun s => s.Versioned ∧ s.ChangedOnce) (start db clock) as := by
    refine always_of_everyStep (fun s a hs hfresh => ?_) ?_ h
    · exact ⟨hs.1.step hfresh, changedOnce_step hs.1 hs.2 hfresh⟩
    · exact ⟨.start db clock, fun _ _ => Nat.zero_le _⟩
  refine ⟨hinv.mono fun _ hs => hs.2, everyStep_iff_initial.mpr fun pre a hpre => ?_⟩
  have hs := always_iff_initial.mp hinv pre ((List.prefix_append pre [a]).trans hpre)
  exact noLostUpdate_of_freshSave hs.1 (everyStep_iff_initial.mp h pre a hpre)

def changesInTurn : List Action :=
  [Sample.intake "A"]
    ++ Sample.request (.changePriority Sample.admin "A" ⟨.high, 1⟩)
    ++ Sample.request (.changeStatus Sample.admin "A" ⟨.inProgress, 1⟩)
    ++ Sample.request (.changeStatus Sample.admin "A" ⟨.inProgress, 2⟩)

theorem no_update_lost_in_turn :
    Always (step Sample.config) ChangedOnce (start .empty 0) changesInTurn ∧
      EveryStep (step Sample.config) (NoLostUpdate Sample.config) (start .empty 0) changesInTurn :=
  no_update_lost_of_freshSave Sample.config .empty 0 changesInTurn (by decide)

def changesAtOnce : List Action :=
  [Sample.intake "A",
    .load 0 (.changePriority Sample.admin "A" ⟨.high, 1⟩),
    .load 1 (.changeStatus Sample.admin "A" ⟨.inProgress, 1⟩),
    .commit 0 fun _ => false,
    .commit 1 fun _ => false]

theorem stale_changes_both_succeed :
    ¬ ∀ (cfg : Config) (db : Db) (clock : Time) (as : List Action),
      Always (step cfg) ChangedOnce (start db clock) as ∧
        EveryStep (step cfg) (NoLostUpdate cfg) (start db clock) as := by
  intro h
  have honce := (h Sample.config .empty 0 changesAtOnce).1.final "A" 1
  revert honce
  decide

end System

end Cimp
