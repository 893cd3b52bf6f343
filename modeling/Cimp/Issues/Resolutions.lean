import Cimp.Issues.AuditReplay

namespace Cimp

open Execution Journal

def AuditEvent.movedTo (target : IssueStatus) (i : Uuid) (a : AuditEvent) : Bool :=
  a.issue = some i && a.action = "STATUS_CHANGED" && a.newValue = some target.value

def AuditEvent.resolution (a : AuditEvent) : Option Time :=
  if a.newValue = some IssueStatus.reopened.value then none else some a.createdAt

/-- An issue's moves to RESOLVED and to REOPENED. -/
def resolutionRows (i : Uuid) (audit : List AuditEvent) : List AuditEvent :=
  audit.filter fun a => a.movedTo .resolved i || a.movedTo .reopened i

def lastResolved (i : Uuid) (audit : List AuditEvent) : Option Time :=
  replay AuditEvent.resolution none (resolutionRows i audit)

/-- The column a reopen clears says what the audit trail says. -/
def ResolutionTracked (db : Db) : Prop :=
  ∀ i row, db.issues.findOne i = some row → row.resolvedAt = lastResolved i db.auditEvents

theorem lastResolved_append (i : Uuid) (audit more : List AuditEvent) :
    lastResolved i (audit ++ more) = replay AuditEvent.resolution (lastResolved i audit) (resolutionRows i more) := by
  rw [lastResolved, resolutionRows, List.filter_append, replay_append]
  rfl

theorem resolutionRows_eq_nil {i : Uuid} {audit : List AuditEvent}
    (h : ∀ a ∈ audit, a.issue = some i → a.action ≠ "STATUS_CHANGED") : resolutionRows i audit = [] := by
  rw [resolutionRows, List.filter_eq_nil_iff]
  intro a ha hmoved
  simp only [AuditEvent.movedTo, Bool.or_eq_true, Bool.and_eq_true, decide_eq_true_eq] at hmoved
  rcases hmoved with hmoved | hmoved
  · exact h a ha hmoved.1.1 hmoved.1.2
  · exact h a ha hmoved.1.1 hmoved.1.2

theorem lastResolved_append_nil {i : Uuid} {audit more : List AuditEvent}
    (h : ∀ a ∈ more, a.issue = some i → a.action ≠ "STATUS_CHANGED") :
    lastResolved i (audit ++ more) = lastResolved i audit := by
  rw [lastResolved_append, resolutionRows_eq_nil h]
  rfl

theorem replay_statusChange {i : Uuid} {now : Time} {a : AuditInput} {target : IssueStatus} (hissue : a.issueId = some i)
    (haction : a.action = "STATUS_CHANGED") (hvalue : a.newValue = some target.value) (v : Option Time) :
    replay AuditEvent.resolution v (resolutionRows i [a.toEvent now]) =
      if target = .resolved then some now else if target = .reopened then none else v := by
  cases target <;> simp [resolutionRows, AuditEvent.movedTo, AuditInput.toEvent, hissue, haction, hvalue, replay,
    AuditEvent.resolution, IssueStatus.value]

theorem Request.Loads.resolution {now : Time} {db : Db} {r : Request} {w : Write} (h : Loads now db r w) :
    ∃ row, db.issues.findOne w.issue.id = some row ∧ w.issue.resolvedAt =
      replay AuditEvent.resolution row.resolvedAt
        (resolutionRows w.issue.id (w.audit.map (AuditInput.toEvent now))) := by
  cases h with
  | merge hrow =>
    refine ⟨_, Table.findOne_self hrow, ?_⟩
    -- a merge closes the duplicate, which keeps its resolution
    simp [MergeService.mergeWrite, MergeService.close, resolutionRows, AuditEvent.movedTo, AuditInput.toEvent,
      IssueStatus.value, replay, Issue.toEntity]
  | @changeStatus _ _ dto row hrow =>
    refine ⟨row, ?_, ?_⟩
    · rw [IssuesService.statusWrite, IssueEntity.setStatus_id]
      exact Table.findOne_self hrow
    · rw [IssuesService.statusWrite, IssueEntity.setStatus_id, IssueEntity.setStatus_resolvedAt]
      exact (replay_statusChange rfl rfl rfl _).symm
  | changePriority hrow =>
    refine ⟨_, Table.findOne_self hrow, ?_⟩
    rw [resolutionRows_eq_nil (by simp [IssuesService.priorityWrite, AuditInput.toEvent])]
    rfl
  | changeAssignment hrow =>
    refine ⟨_, Table.findOne_self hrow, ?_⟩
    rw [resolutionRows_eq_nil (by simp [IssuesService.assignmentWrite, AuditInput.toEvent])]
    rfl
  | @webhook _ _ _ row target _ _ hlinked =>
    refine ⟨row, ?_, ?_⟩
    · rw [JiraInboundService.webhookWrite, IssueEntity.setStatus_id]
      exact JiraInboundService.findByJiraKey_some hlinked
    · rw [JiraInboundService.webhookWrite, IssueEntity.setStatus_id, IssueEntity.setStatus_resolvedAt]
      exact (replay_statusChange rfl rfl rfl _).symm

theorem ResolutionTracked.write {db db' : Db} {env : Env} {r : Request} {w : Write} (h : ResolutionTracked db)
    (hloads : Request.Loads env.now db r w) (hbody : w.body env db = some db') : ResolutionTracked db' := by
  obtain ⟨row, hrow, hresolution⟩ := hloads.resolution
  intro i saved hsaved
  rw [Write.findOne_of_body hbody] at hsaved
  rw [(Write.body_spec hbody).2]
  split at hsaved
  · rename_i hi
    subst hi
    rw [hrow] at hsaved
    cases hsaved
    rw [IssueEntity.written_columns, hresolution, lastResolved_append, h _ row hrow]
  · rename_i hi
    rw [h i saved hsaved, lastResolved_append_nil]
    intro e he heq
    rw [hloads.issue_of_mem_audit he, Option.some_inj] at heq
    exact absurd heq.symm hi

theorem ResolutionTracked.intake {db db' : Db} {now : Time} {ctx : HandoffContext} {dto : CreateIssueDto}
    {reporter : Uuid} {ids : IntakeIds} {e : AuditEvent} (h : ResolutionTracked db) (haudited : Audited db)
    (hinsert : db.issues.insert (ReporterService.newIssue now ctx dto reporter ids) = some db'.issues)
    (haction : e.action = "ISSUE_CREATED") (haudit : db'.auditEvents = db.auditEvents ++ [e]) :
    ResolutionTracked db' := by
  intro i row hrow
  rw [Table.findOne_insert hinsert] at hrow
  rw [haudit, lastResolved_append_nil (by simp [haction])]
  split at hrow
  · rename_i hi
    cases hrow
    have hbefore : resolutionRows i db.auditEvents = [] := by
      apply resolutionRows_eq_nil
      intro a ha heq
      exact absurd heq (haudited.issues i (hi ▸ Table.insert_fresh hinsert) a ha)
    rw [lastResolved, hbefore]
    rfl
  · exact h i row hrow

theorem ResolutionTracked.update {db db' : Db} {id : Uuid} {f : Issue → Issue} {hf : ∀ r, (f r).id = r.id}
    {more : List AuditEvent} (h : ResolutionTracked db) (hissues : db'.issues = db.issues.update id f hf)
    (haudit : db'.auditEvents = db.auditEvents ++ more) (hkeeps : ∀ row, (f row).resolvedAt = row.resolvedAt)
    (hmore : ∀ a ∈ more, a.action ≠ "STATUS_CHANGED") : ResolutionTracked db' := by
  intro i row hrow
  rw [hissues, Table.findOne_update] at hrow
  rw [haudit, lastResolved_append_nil fun a ha _ => hmore a ha]
  split at hrow
  · obtain ⟨old, hold, rfl⟩ := Option.map_eq_some_iff.mp hrow
    rw [hkeeps, h i old hold]
  · exact h i row hrow

theorem ResolutionTracked.rule {now : Time} {run run' : AutomationRun} (h : ResolutionTracked run.db)
    (happlied : AutomationService.Applied now run run') : ResolutionTracked run'.db := by
  cases happlied with
  | priority target _ hissues haudit =>
    refine h.update hissues haudit (fun _ => rfl) ?_
    simp [AutomationService.priorityAudit, AuditInput.toEvent]
  | assignee target _ hissues haudit =>
    refine h.update hissues haudit (fun _ => rfl) ?_
    simp [AutomationService.assignedAudit, AuditInput.toEvent]
  | label label _ hissues haudit =>
    intro i row hrow
    rw [hissues] at hrow
    rw [haudit, lastResolved_append_nil (by simp [AutomationService.labelAudit, AuditInput.toEvent])]
    exact h i row hrow

theorem ResolutionTracked.run {cfg : Config} {db : Db} (h : Audited db ∧ ResolutionTracked db) (op : Operation) :
    Audited (op.run cfg db) ∧ ResolutionTracked (op.run cfg db) := by
  refine Operation.run_preserves (P := fun db => Audited db ∧ ResolutionTracked db) ?_ ?_ ?_ ?_ ?_ h
  · intro db db' hissues haudit hs
    refine ⟨hs.1.congr hissues haudit, ?_⟩
    rw [ResolutionTracked, hissues, haudit]
    exact hs.2
  · intro db db' now ctx dto reporter ids e hinsert hissue hfield haction haudit hs
    exact ⟨hs.1.intake hinsert hissue hfield haudit, hs.2.intake hs.1 hinsert haction haudit⟩
  · intro db db' env r w _ hloads hbody hs
    exact ⟨hs.1.write hloads hbody, hs.2.write hloads hbody⟩
  · intro now run run' hmirrors happlied hs
    exact ⟨hs.1.rule hmirrors happlied, hs.2.rule happlied⟩
  · intro db now id key status hs
    refine ⟨hs.1.synced now id key status, ?_⟩
    exact hs.2.update (JiraListener.update_issues ..) (List.append_nil _).symm (fun _ => rfl) (by simp)

end Cimp
