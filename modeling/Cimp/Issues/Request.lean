import Cimp.Issues.Merge
import Cimp.Jira.Inbound

namespace Cimp

inductive Request
  | merge (staff : AuthenticatedStaff) (issueId : UuidText) (dto : MergeIssueDto) (ids : MergeIds)
  | changeStatus (staff : AuthenticatedStaff) (issueId : Uuid) (dto : UpdateStatusDto)
  | changePriority (staff : AuthenticatedStaff) (issueId : Uuid) (dto : UpdatePriorityDto)
  | changeAssignment (staff : AuthenticatedStaff) (issueId : Uuid) (dto : UpdateAssignmentDto)
  | webhook (payload : JiraPayload)
deriving DecidableEq, Repr

namespace Request

open IssuesService MergeService JiraInboundService

/-- Everything before the transaction; `none` is a webhook that has nothing to apply. -/
def load (cfg : Config) (now : Time) (db : Db) : Request → Except HttpException (Option Write)
  | .merge staff issueId dto ids => some <$> MergeService.merge now db staff issueId dto ids
  | .changeStatus staff issueId dto => do
    let issue ← loadForWrite db issueId
    some <$> applyStatus cfg now staff issue dto
  | .changePriority staff issueId dto => do
    let issue ← loadForWrite db issueId
    some <$> applyPriority staff issue dto
  | .changeAssignment staff issueId dto => do
    let issue ← loadForWrite db issueId
    some <$> applyAssignment db staff issue dto
  | .webhook payload => applyWebhook now db payload

inductive Loads (now : Time) (db : Db) : Request → Write → Prop
  | merge {staff issueId dto ids} {duplicate canonical root : Issue}
      (duplicate_row : db.issues.findOne issueId.uuid = some duplicate)
      (canonical_row : db.issues.findOne canonical.id = some canonical)
      (root_row : db.issues.findOne root.id = some root)
      (platform : duplicate.platform = canonical.platform)
      (fresh : duplicate.duplicateOf = none) (live : duplicate.status ≠ .closed)
      (version : dto.version = duplicate.version) (root_fresh : root.duplicateOf = none)
      (root_live : root.status ≠ .closed)
      (hop : root = canonical ∨ canonical.duplicateOf = some root.id) :
      Loads now db (.merge staff issueId dto ids)
        (mergeWrite now staff (duplicate.toEntity { duplicateOf := true }) root.id ids)
  | changeStatus {staff issueId dto} {row : Issue} (row_eq : db.issues.findOne issueId = some row)
      (version : row.version = dto.version) (transition : canTransition row.status dto.status = true) :
      Loads now db (.changeStatus staff issueId dto)
        (statusWrite now staff (row.toEntity { assignee := true }) dto.status)
  | changePriority {staff issueId dto} {row : Issue} (row_eq : db.issues.findOne issueId = some row)
      (version : row.version = dto.version) (differs : row.priority ≠ dto.priority) :
      Loads now db (.changePriority staff issueId dto)
        (priorityWrite staff (row.toEntity { assignee := true }) dto.priority)
  | changeAssignment {staff issueId dto} {row : Issue} (row_eq : db.issues.findOne issueId = some row)
      (version : row.version = dto.version) :
      Loads now db (.changeAssignment staff issueId dto)
        (assignmentWrite staff (row.toEntity { assignee := true }) dto.assigneeId)
  | webhook {key categoryKey mapped} {row : Issue} {target : IssueStatus} (named : key ≠ "")
      (category : categoryToStatus categoryKey = some mapped) (linked : findByJiraKey db key = some row)
      (resolves : resolveTarget row.status mapped = .status target) (moves : row.status ≠ target) :
      Loads now db (.webhook ⟨some key, some categoryKey⟩) (webhookWrite now (row.toEntity {}) target)

theorem map_some_ok {x : Except HttpException Write} {w : Write} (h : some <$> x = .ok (some w)) :
    x = .ok w := by
  cases x with
  | error e => cases h
  | ok v => cases h; rfl

theorem loads_of_load {cfg : Config} {now : Time} {db : Db} {r : Request} {w : Write}
    (h : r.load cfg now db = .ok (some w)) : Loads now db r w := by
  cases r with
  | merge staff issueId dto ids =>
    obtain ⟨duplicate, canonical, root, h1, h2, h3, h4, h5, h6, h7, h8, h9, h10, rfl⟩ :=
      merge_ok (map_some_ok h)
    exact .merge h1 h2 h3 h4 h5 h6 h7 h8 h9 h10
  | changeStatus staff issueId dto =>
    obtain ⟨issue, hload, h⟩ := bind_ok h
    obtain ⟨row, hrow, rfl⟩ := loadForWrite_ok hload
    obtain ⟨hversion, htransition, rfl⟩ := applyStatus_ok (map_some_ok h)
    exact .changeStatus hrow hversion htransition
  | changePriority staff issueId dto =>
    obtain ⟨issue, hload, h⟩ := bind_ok h
    obtain ⟨row, hrow, rfl⟩ := loadForWrite_ok hload
    obtain ⟨hversion, hdiffers, rfl⟩ := applyPriority_ok (map_some_ok h)
    exact .changePriority hrow hversion hdiffers
  | changeAssignment staff issueId dto =>
    obtain ⟨issue, hload, h⟩ := bind_ok h
    obtain ⟨row, hrow, rfl⟩ := loadForWrite_ok hload
    obtain ⟨hversion, rfl⟩ := applyAssignment_ok (map_some_ok h)
    exact .changeAssignment hrow hversion
  | webhook payload =>
    obtain ⟨key, categoryKey, mapped, row, target, rfl, h1, h2, h3, h4, h5, rfl⟩ := applyWebhook_ok h
    exact .webhook h1 h2 h3 h4 h5

namespace Loads

variable {now : Time} {db : Db} {r : Request} {w : Write}

theorem row (h : Loads now db r w) : ∃ row, db.issues.findOne w.issue.id = some row ∧
    w.issue.version = row.version ∧ w.issue.platform = row.platform := by
  cases h with
  | merge hrow _ _ _ _ _ _ _ _ _ => exact ⟨_, Table.findOne_self hrow, rfl, rfl⟩
  | changeStatus hrow _ _ =>
    refine ⟨_, ?_, IssueEntity.setStatus_version _ _ _, IssueEntity.setStatus_platform _ _ _⟩
    rw [statusWrite, IssueEntity.setStatus_id]
    exact Table.findOne_self hrow
  | changePriority hrow _ _ => exact ⟨_, Table.findOne_self hrow, rfl, rfl⟩
  | changeAssignment hrow _ => exact ⟨_, Table.findOne_self hrow, rfl, rfl⟩
  | webhook _ _ hrow _ _ =>
    refine ⟨_, ?_, IssueEntity.setStatus_version _ _ _, IssueEntity.setStatus_platform _ _ _⟩
    rw [webhookWrite, IssueEntity.setStatus_id]
    exact findByJiraKey_some hrow

theorem audit (h : Loads now db r w) :
    ∀ a ∈ w.audit, a.issueId = some w.issue.id ∧ a.action ≠ "SLA_BREACHED" := by
  cases h with
  | merge => simp [MergeService.mergeWrite, MergeService.close]
  | changeStatus => simp [IssuesService.statusWrite]
  | changePriority => simp [IssuesService.priorityWrite]
  | changeAssignment => simp [IssuesService.assignmentWrite]
  | webhook => simp [JiraInboundService.webhookWrite]

theorem issue_of_mem_audit (h : Loads now db r w) {later : Time} {e : AuditEvent}
    (he : e ∈ w.audit.map (AuditInput.toEvent later)) : e.issue = some w.issue.id := by
  obtain ⟨a, ha, rfl⟩ := List.mem_map.mp he
  exact (h.audit a ha).1

theorem keeps_body {β : Type} {π : Db → β} (h : Loads now db r w) (env : Env)
    (hissues : ∀ db issues, π { db with issues } = π db) (haudit : ∀ db auditEvents, π { db with auditEvents } = π db)
    (hlinks : ∀ db issueLinks, π { db with issueLinks } = π db)
    (hwatchers : ∀ db issueWatchers, π { db with issueWatchers } = π db)
    (hcomments : ∀ c : Comment, c.authorType = .staff → Transaction.Keeps π c.insert) :
    Transaction.Keeps π (w.body env) := by
  apply Write.keeps_body hissues haudit
  intro q hq
  cases h with
  | merge => exact MergeService.keeps_others hlinks hwatchers (hcomments _ rfl) (hcomments _ rfl) q hq
  | changeStatus => cases hq
  | changePriority => cases hq
  | changeAssignment => cases hq
  | webhook => cases hq

end Loads

end Request

end Cimp
