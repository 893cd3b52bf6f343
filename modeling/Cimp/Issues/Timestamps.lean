import Cimp.Issues.Operation

namespace Cimp

open Execution

structure StampsAgree (i : Issue) : Prop where
  resolved : i.status = .resolved → i.resolvedAt.isSome ∧ i.closedAt = none
  closed : i.status = .closed ↔ i.closedAt.isSome
  resolvedAt : i.resolvedAt.isSome → i.status = .resolved ∨ i.status = .closed
  duplicateOf : i.duplicateOf.isSome → i.status = .closed

def Stamped (db : Db) : Prop := ∀ i row, db.issues.findOne i = some row → StampsAgree row

structure Stamps where
  status : IssueStatus
  resolved : Bool
  closed : Bool
  duplicate : Bool
deriving DecidableEq, Repr

namespace Stamps

def Agree (s : Stamps) : Prop :=
  (s.status = .resolved → s.resolved ∧ s.closed = false) ∧ (s.status = .closed ↔ s.closed) ∧
    (s.resolved → s.status = .resolved ∨ s.status = .closed) ∧ (s.duplicate → s.status = .closed)

instance (s : Stamps) : Decidable s.Agree := by unfold Agree; infer_instance

def move (s : Stamps) : IssueStatus → Stamps
  | .resolved => { s with status := .resolved, resolved := true }
  | .closed => { s with status := .closed, closed := true }
  | .reopened => ⟨.reopened, false, false, false⟩
  | target => { s with status := target }

def Moves (old target : IssueStatus) : Prop :=
  old ≠ target ∧ (old = .resolved ∨ old = .closed → target = .reopened ∨ target = .resolved ∨ target = .closed)

instance (old target : IssueStatus) : Decidable (Moves old target) := by unfold Moves; infer_instance

theorem agree_move_iff {s : Stamps} {target : IssueStatus} (h : s.Agree) (hmoves : Moves s.status target) :
    (s.move target).Agree ↔ ¬ (s.status = .closed ∧ target = .resolved) := by
  obtain ⟨status, resolved, closed, duplicate⟩ := s
  revert h hmoves
  cases status <;> cases target <;> revert resolved closed duplicate <;> decide

theorem agree_merge (resolved : Bool) : (⟨.closed, resolved, true, true⟩ : Stamps).Agree := by
  cases resolved <;> decide

theorem moves_of_canTransition {old target : IssueStatus} (h : canTransition old target = true) :
    Moves old target ∧ ¬ (old = .closed ∧ target = .resolved) := by
  revert h
  cases old <;> cases target <;> decide

theorem moves_of_resolveTarget {old target : IssueStatus} {mapped : JiraInboundService.Mapped}
    (h : JiraInboundService.resolveTarget old mapped = .status target) (hne : old ≠ target) :
    Moves old target := by
  refine ⟨hne, fun hterminal => ?_⟩
  have hmem : old ∈ JiraInboundService.terminalStatuses := by rcases hterminal with rfl | rfl <;> decide
  unfold JiraInboundService.resolveTarget at h
  split at h
  · cases h
    exact .inl rfl
  · rename_i hc
    have hmapped : mapped = .status .resolved := by
      by_contra hother
      exact hc ⟨hother, hmem⟩
    rw [h] at hmapped
    cases hmapped
    exact .inr (.inl rfl)

end Stamps

def Issue.stamps (i : Issue) : Stamps :=
  ⟨i.status, i.resolvedAt.isSome, i.closedAt.isSome, i.duplicateOf.isSome⟩

theorem stampsAgree_iff {i : Issue} : StampsAgree i ↔ i.stamps.Agree := by
  have hnone : i.closedAt = none ↔ i.closedAt.isSome = false := by cases i.closedAt <;> simp
  constructor
  · rintro ⟨h1, h2, h3, h4⟩
    exact ⟨fun hs => ⟨(h1 hs).1, hnone.mp (h1 hs).2⟩, h2, h3, h4⟩
  · rintro ⟨h1, h2, h3, h4⟩
    exact ⟨fun hs => ⟨(h1 hs).1, hnone.mpr (h1 hs).2⟩, h2, h3, h4⟩

theorem stamps_setStatus (now savedAt : Time) {e : IssueEntity} {row : Issue} (target : IssueStatus)
    (hcolumns : e.toIssueColumns = row.toIssueColumns) (hpointer : e.duplicateOf = none) :
    ((e.setStatus now target).written savedAt row).stamps = row.stamps.move target := by
  rw [Issue.stamps, IssueEntity.written_columns, IssueEntity.written_duplicateOf,
    IssueEntity.setStatus_duplicateOf, hpointer]
  cases target <;> simp [IssueEntity.setStatus, applyStatusSideEffects, Stamps.move, Issue.stamps, hcolumns]

theorem StampsAgree.congr {i j : Issue} (h : StampsAgree i) (status : j.status = i.status)
    (resolvedAt : j.resolvedAt = i.resolvedAt) (closedAt : j.closedAt = i.closedAt)
    (duplicateOf : j.duplicateOf = i.duplicateOf) : StampsAgree j := by
  rw [stampsAgree_iff, Issue.stamps] at h ⊢
  rwa [status, resolvedAt, closedAt, duplicateOf]

theorem stamped_insert {db db' : Db} {now : Time} {ctx : HandoffContext} {dto : CreateIssueDto}
    {reporter : Uuid} {ids : IntakeIds} (h : Stamped db)
    (hinsert : db.issues.insert (ReporterService.newIssue now ctx dto reporter ids) = some db'.issues) :
    Stamped db' := by
  intro i row hrow
  rw [Table.findOne_insert hinsert] at hrow
  split at hrow
  · cases hrow
    exact stampsAgree_iff.mpr (by decide : (⟨.new, false, false, false⟩ : Stamps).Agree)
  · exact h i row hrow

theorem stamped_update {db db' : Db} {id : Uuid} {f : Issue → Issue} {hf : ∀ r, (f r).id = r.id}
    (h : Stamped db) (hissues : db'.issues = db.issues.update id f hf)
    (hagree : ∀ row, db.issues.findOne id = some row → StampsAgree row → StampsAgree (f row)) :
    Stamped db' := by
  intro i row hrow
  rw [hissues, Table.findOne_update] at hrow
  split at hrow
  · rename_i hi
    subst hi
    obtain ⟨old, hold, rfl⟩ := Option.map_eq_some_iff.mp hrow
    exact hagree old hold (h i old hold)
  · exact h i row hrow

theorem stamped_write {db db' : Db} {env : Env} {r : Request} {w : Write} (h : Stamped db)
    (hother : ∀ payload, r ≠ .webhook payload) (hloads : Request.Loads env.now db r w)
    (hbody : w.body env db = some db') : Stamped db' := by
  apply stamped_update h (Write.body_spec hbody).1
  intro row hrow hagree
  cases hloads with
  | merge hloaded =>
    obtain rfl := Table.findOne_unique hloaded hrow
    rw [stampsAgree_iff, Issue.stamps, IssueEntity.written_columns, IssueEntity.written_duplicateOf]
    exact Stamps.agree_merge row.resolvedAt.isSome
  | changeStatus hloaded _ htransition =>
    rw [IssuesService.statusWrite, IssueEntity.setStatus_id] at hrow
    obtain rfl := Table.findOne_unique hloaded hrow
    obtain ⟨hmoves, hok⟩ := Stamps.moves_of_canTransition htransition
    rw [stampsAgree_iff, IssuesService.statusWrite, stamps_setStatus _ _ _ rfl rfl]
    exact (Stamps.agree_move_iff (stampsAgree_iff.mp hagree) hmoves).mpr hok
  | changePriority hloaded _ _ =>
    obtain rfl := Table.findOne_unique hloaded hrow
    rw [stampsAgree_iff, Issue.stamps, IssueEntity.written_columns, IssueEntity.written_duplicateOf]
    exact stampsAgree_iff.mp hagree
  | changeAssignment hloaded _ =>
    obtain rfl := Table.findOne_unique hloaded hrow
    rw [stampsAgree_iff, Issue.stamps, IssueEntity.written_columns, IssueEntity.written_duplicateOf]
    exact stampsAgree_iff.mp hagree
  | webhook => exact absurd rfl (hother _)

theorem target_resolved_iff {old target : IssueStatus} {categoryKey : String}
    {mapped : JiraInboundService.Mapped} (hold : old = .closed)
    (hcategory : JiraInboundService.categoryToStatus categoryKey = some mapped)
    (hresolves : JiraInboundService.resolveTarget old mapped = .status target) :
    target = .resolved ↔ categoryKey = "done" := by
  subst hold
  constructor
  · rintro rfl
    rcases JiraInboundService.categoryToStatus_cases hcategory with ⟨hdone, _⟩ | rfl | rfl | rfl
    · exact hdone
    · exact absurd hresolves (by decide)
    · exact absurd hresolves (by decide)
    · exact absurd hresolves (by decide)
  · rintro rfl
    cases hcategory
    exact (JiraInboundService.Mapped.status.inj hresolves).symm

def Operation.DoneOnClosed (db : Db) : Operation → Prop
  | .request env (.webhook payload) =>
    env.read = false ∧ env.statement 0 = false ∧ env.statement 1 = false ∧
      ∃ key row, payload = ⟨some key, some "done"⟩ ∧ key ≠ "" ∧
        JiraInboundService.findByJiraKey db key = some row ∧ row.status = .closed
  | _ => False

theorem webhookWrite_body_iff (env : Env) (db : Db) (now : Time) (issue : IssueEntity) (target : IssueStatus) :
    (∃ t, (JiraInboundService.webhookWrite now issue target).body env db = some t) ↔
      env.statement 0 = false ∧ env.statement 1 = false := by
  cases h0 : env.statement 0 <;> cases h1 : env.statement 1 <;>
    simp [Write.body, Write.statements, Transaction.body, JiraInboundService.webhookWrite, IssueEntity.save,
      AuditService.record, h0, h1]

theorem stamped_webhook_iff {db db' : Db} {env : Env} {payload : JiraPayload} {w : Write} (h : Stamped db)
    (hread : env.read = false) (hloads : Request.Loads env.now db (.webhook payload) w)
    (hbody : w.body env db = some db') :
    Stamped db' ↔ ¬ Operation.DoneOnClosed db (.request env (.webhook payload)) := by
  cases hloads with
  | @webhook key categoryKey mapped row target hnamed hcategory hlinked hresolves hne =>
    have hself := JiraInboundService.findByJiraKey_some hlinked
    have hmoves := Stamps.moves_of_resolveTarget hresolves hne
    have hiff := Stamps.agree_move_iff (stampsAgree_iff.mp (h _ _ hself)) hmoves
    rw [← stamps_setStatus env.now env.now (e := row.toEntity {}) target rfl rfl, ← stampsAgree_iff] at hiff
    have hstatements := (webhookWrite_body_iff _ _ _ _ _).mp ⟨db', hbody⟩
    have hid : (JiraInboundService.webhookWrite env.now (row.toEntity {}) target).issue.id = row.id :=
      IssueEntity.setStatus_id _ _ _
    constructor
    · rintro hstamped ⟨_, _, _, key', row', hpayload, _, hlinked', hclosed⟩
      cases hpayload
      rw [hlinked] at hlinked'
      cases hlinked'
      refine hiff.mp (hstamped row.id _ ?_) ⟨hclosed, (target_resolved_iff hclosed hcategory hresolves).mpr rfl⟩
      rw [Write.findOne_of_body hbody, if_pos hid.symm, hself]
      rfl
    · intro hok
      apply stamped_update h (Write.body_spec hbody).1
      intro stored hstored _
      rw [hid] at hstored
      obtain rfl := Table.findOne_unique hself hstored
      refine hiff.mpr fun ⟨hclosed, htarget⟩ => hok ?_
      have hdone := (target_resolved_iff hclosed hcategory hresolves).mp htarget
      exact ⟨hread, hstatements.1, hstatements.2, key, stored, by rw [hdone], hnamed, hlinked, hclosed⟩

theorem doneOnClosed_commits (cfg : Config) {db : Db} {env : Env} {payload : JiraPayload}
    (h : Operation.DoneOnClosed db (.request env (.webhook payload))) :
    ∃ w, Request.Loads env.now db (.webhook payload) w ∧
      w.body env db = some (Request.run cfg env db (.webhook payload)) := by
  obtain ⟨hread, h0, h1, key, row, rfl, hnamed, hlinked, hclosed⟩ := h
  have hload : (Request.webhook ⟨some key, some "done"⟩).load cfg env.now db =
      .ok (some (JiraInboundService.webhookWrite env.now (row.toEntity {}) .resolved)) := by
    simp [Request.load, JiraInboundService.applyWebhook, JiraInboundService.categoryToStatus, hnamed, hlinked,
      JiraInboundService.resolveTarget, hclosed]
  obtain ⟨t, ht⟩ := (webhookWrite_body_iff env db env.now (row.toEntity {}) .resolved).mpr ⟨h0, h1⟩
  refine ⟨_, Request.loads_of_load hload, ?_⟩
  simp [Request.run, hread, hload, Write.commit, ht]

theorem stamped_run_iff {cfg : Config} {db : Db} {op : Operation} (h : Stamped db) :
    Stamped (op.run cfg db) ↔ ¬ op.DoneOnClosed db := by
  have hrest : (∀ env payload, op ≠ .request env (.webhook payload)) → Stamped (op.run cfg db) := by
    intro hop
    refine Operation.run_preserves (fun db db' hissues _ hs => ?_) ?_ ?_ ?_ ?_ h
    · intro i row hrow
      exact hs i row (hissues ▸ hrow)
    · intro db db' now ctx dto reporter ids e hinsert _ _ _ _ hs
      exact stamped_insert hs hinsert
    · intro db db' env r w hr hloads hbody hs
      refine stamped_write hs (fun payload hpayload => ?_) hloads hbody
      rcases hr with hr | hr
      · exact hop env payload (hpayload ▸ hr)
      · exact hr payload hpayload
    · intro now run run' _ happlied hs
      cases happlied with
      | priority target _ hissues _ =>
        exact stamped_update hs hissues fun row _ hrow => hrow.congr rfl rfl rfl rfl
      | assignee target _ hissues _ =>
        exact stamped_update hs hissues fun row _ hrow => hrow.congr rfl rfl rfl rfl
      | label _ _ hissues _ =>
        intro i row hrow
        exact hs i row (hissues ▸ hrow)
    · intro db now id key status hs
      apply stamped_update hs (JiraListener.update_issues ..)
      intro row _ hrow
      exact hrow.congr rfl rfl rfl rfl
  cases op with
  | request env r =>
    cases r with
    | webhook payload =>
      rcases Operation.request_cases cfg env db (.webhook payload) with hsame | ⟨w, hloads, hread, hbody⟩
      · apply iff_of_true (by simpa only [Operation.run, hsame] using h)
        intro hdone
        obtain ⟨w, hloads, hbody⟩ := doneOnClosed_commits cfg hdone
        rw [hsame] at hbody
        exact (stamped_webhook_iff h hdone.1 hloads hbody).mp h hdone
      · exact stamped_webhook_iff h hread hloads hbody
    | merge => exact iff_of_true (hrest (by simp)) id
    | changeStatus => exact iff_of_true (hrest (by simp)) id
    | changePriority => exact iff_of_true (hrest (by simp)) id
    | changeAssignment => exact iff_of_true (hrest (by simp)) id
  | intake => exact iff_of_true (hrest (by simp)) id
  | bulkUpdate => exact iff_of_true (hrest (by simp)) id
  | automation => exact iff_of_true (hrest (by simp)) id
  | jiraSync => exact iff_of_true (hrest (by simp)) id

/-- The stamps of every issue agree throughout a run exactly when no webhook of the run marks as done
an issue that is closed. -/
theorem stamps_agree_iff_no_done_on_closed (cfg : Config) (db : Db) (hstart : Stamped db)
    (ops : List Operation) :
    Always (Operation.run cfg) Stamped db ops ↔
      EveryStep (Operation.run cfg) (fun db op => ¬ op.DoneOnClosed db) db ops :=
  always_iff_everyStep (I := fun _ => True) (fun _ _ _ => trivial)
    (fun _ _ _ hs => stamped_run_iff hs) trivial hstart ops

theorem stamped_empty : Stamped .empty := fun _ _ h => by cases h

namespace Sample

def closedWithTicket : List Operation :=
  [.intake { now := 0 } context ⟨"It does not load", none⟩ [] ⟨"A", "reporter", "A"⟩,
    .jiraSync { now := 1 } "A" (some "SUP-1"),
    .request { now := 2 } (.changeStatus admin "A" ⟨.closed, 3⟩)]

def done (now : Time) : Operation := .request { now := now } (.webhook ⟨some "SUP-1", some "done"⟩)

end Sample

theorem stamps_agree_iff_closedWithTicket :
    Always (Operation.run Sample.config) Stamped .empty Sample.closedWithTicket ↔
      EveryStep (Operation.run Sample.config) (fun db op => ¬ op.DoneOnClosed db) .empty
        Sample.closedWithTicket :=
  stamps_agree_iff_no_done_on_closed Sample.config .empty stamped_empty Sample.closedWithTicket

theorem done_leaves_closedAt :
    ¬ ∀ (cfg : Config) (db : Db) (ops : List Operation), Stamped db →
      Always (Operation.run cfg) Stamped db ops := by
  intro h
  have hfinal := (h Sample.config .empty (Sample.closedWithTicket ++ [Sample.done 3]) stamped_empty).final
  obtain ⟨row, hrow, hstatus, hclosed⟩ : ∃ row, (exec (Operation.run Sample.config) .empty
      (Sample.closedWithTicket ++ [Sample.done 3])).issues.findOne "A" = some row ∧
        row.status = .resolved ∧ row.closedAt = some 2 := ⟨_, rfl, rfl, rfl⟩
  have hnone := ((hfinal "A" row hrow).resolved hstatus).2
  rw [hclosed] at hnone
  cases hnone

end Cimp
