import Cimp.Issues.Changes
import Cimp.Lib.Execution

namespace Cimp

open Transaction

/-- `actionValue` is a priority, a staff id or a label id, as `action` says, an id in the spelling of its row. -/
structure AutomationRule where
  id : Uuid
  platform : Uuid
  enabled : Bool
  trigger : AutomationTrigger
  triggerStatus : Option IssueStatus
  action : AutomationAction
  actionValue : String
deriving DecidableEq, Repr

/-- A run of rules: the in-memory issue that is carried from rule to rule, and what is stored. -/
structure AutomationRun where
  issue : IssueEntity
  db : Db
  events : List IssueEvent

def Issue.withPriority (now : Time) (target : Priority) (row : Issue) : Issue :=
  { row with priority := target, updatedAt := now, version := row.version + 1 }

def Issue.withAssignee (now : Time) (target : Uuid) (row : Issue) : Issue :=
  { row with assignee := some target, updatedAt := now, version := row.version + 1 }

theorem Issue.withPriority_id (now : Time) (target : Priority) (row : Issue) :
    (row.withPriority now target).id = row.id := rfl

theorem Issue.withAssignee_id (now : Time) (target : Uuid) (row : Issue) :
    (row.withAssignee now target).id = row.id := rfl

def IssueLabel.insertOrIgnore (l : IssueLabel) : Statement Db := fun db =>
  if (db.labels.findOne l.label).isNone then none
  else if l ∈ db.issueLabels then some db
  else some { db with issueLabels := db.issueLabels ++ [l] }

namespace AutomationService

def systemActor : String := ""

def updatePriority (now : Time) (id : Uuid) (target : Priority) : Statement Db := fun db =>
  some { db with issues := db.issues.update id (Issue.withPriority now target) (Issue.withPriority_id now target) }

def updateAssignee (now : Time) (id target : Uuid) : Statement Db := fun db =>
  some { db with issues := db.issues.update id (Issue.withAssignee now target) (Issue.withAssignee_id now target) }

def priorityAudit (issue : IssueEntity) (target : Priority) : AuditInput where
  issueId := issue.id
  actorType := .system
  actorId := none
  action := "PRIORITY_CHANGED"
  field := "priority"
  oldValue := issue.priority.value
  newValue := target.value

def assignedAudit (issue : IssueEntity) (target : Uuid) : AuditInput where
  issueId := issue.id
  actorType := .system
  actorId := none
  action := "ASSIGNED"
  field := "assignee"
  oldValue := issue.assignee.getD none
  newValue := target

def labelAudit (issue : IssueEntity) (label : Uuid) : AuditInput where
  issueId := issue.id
  actorType := .system
  actorId := none
  action := "LABEL_ADDED"
  field := "label"
  newValue := label

def assertAssignable (cfg : Config) (db : Db) (staffUserId platformId : Uuid) :
    Except HttpException (Option Uuid) := do
  require (cfg.isUuid staffUserId) (.badRequest "actionValue for ASSIGN must be a staff id.")
  IssuesService.assignable db platformId (some staffUserId)

def applyAction (cfg : Config) (env : Env) (rule : AutomationRule) (run : AutomationRun) :
    Except String AutomationRun :=
  match rule.action with
  | .setPriority =>
    if run.issue.priority.value = rule.actionValue then .ok run
    else match Priority.ofValue rule.actionValue with
      -- no value of the enum column: the UPDATE fails and takes the transaction with it
      | none => .error env.message
      | some target =>
        match body env.statement [updatePriority env.now run.issue.id target,
            AuditService.record env.now (priorityAudit run.issue target)] run.db with
        | none => .error env.message
        | some db => .ok {
            issue := { run.issue with priority := target }
            db := db
            events := run.events ++ [.priorityChanged run.issue.id run.issue.platform run.issue.priority target
              systemActor] }
  | .assign =>
    if run.issue.assignee.getD none = some rule.actionValue then .ok run
    else if env.read then .error env.message
    else match assertAssignable cfg run.db rule.actionValue run.issue.platform with
      | .error e => .error e.message
      | .ok _ =>
        match body env.statement [updateAssignee env.now run.issue.id rule.actionValue,
            AuditService.record env.now (assignedAudit run.issue rule.actionValue)] run.db with
        | none => .error env.message
        | some db => .ok {
            issue := { run.issue with assignee := some (some rule.actionValue) }
            db := db
            events := run.events ++ [.assigned run.issue.id run.issue.platform (some rule.actionValue)
              systemActor] }
  | .addLabel =>
    match body env.statement [IssueLabel.insertOrIgnore ⟨run.issue.id, rule.actionValue⟩,
        AuditService.record env.now (labelAudit run.issue rule.actionValue)] run.db with
    | none => .error env.message
    | some db => .ok { run with db := db }

def ruleStep (cfg : Config) (env : ℕ → Env) (run : AutomationRun) (item : AutomationRule × ℕ) :
    AutomationRun :=
  match applyAction cfg (env item.2) item.1 run with
  | .error _ => run
  | .ok run' => run'

def applyRules (cfg : Config) (env : ℕ → Env) (issueId : Uuid) (rules : List AutomationRule) (db : Db) :
    Option AutomationRun :=
  (db.issues.findOne issueId).map fun row =>
    Execution.exec (ruleStep cfg env) ⟨row.toEntity { assignee := true }, db, []⟩ rules.zipIdx

def rulesForCreated (rules : List AutomationRule) (platformId : Uuid) : List AutomationRule :=
  rules.filter fun r => r.platform = platformId && r.enabled && r.trigger = .issueCreated

def rulesForStatusChanged (rules : List AutomationRule) (platformId : Uuid) (target : IssueStatus) :
    List AutomationRule :=
  rules.filter fun r => r.platform = platformId && r.enabled && r.trigger = .statusChanged
    && (r.triggerStatus = none || r.triggerStatus = some target)

inductive Applied (now : Time) (run run' : AutomationRun) : Prop
  | priority (target : Priority) (issue : run'.issue = { run.issue with priority := target })
      (issues : run'.db.issues = run.db.issues.update run.issue.id (Issue.withPriority now target)
        (Issue.withPriority_id now target))
      (audit : run'.db.auditEvents = run.db.auditEvents ++ [(priorityAudit run.issue target).toEvent now])
  | assignee (target : Uuid) (issue : run'.issue = { run.issue with assignee := some (some target) })
      (issues : run'.db.issues = run.db.issues.update run.issue.id (Issue.withAssignee now target)
        (Issue.withAssignee_id now target))
      (audit : run'.db.auditEvents = run.db.auditEvents ++ [(assignedAudit run.issue target).toEvent now])
  | label (label : Uuid) (issue : run'.issue = run.issue) (issues : run'.db.issues = run.db.issues)
      (audit : run'.db.auditEvents = run.db.auditEvents ++ [(labelAudit run.issue label).toEvent now])

theorem ruleStep_cases (cfg : Config) (env : ℕ → Env) (run : AutomationRun) (item : AutomationRule × ℕ) :
    ruleStep cfg env run item = run ∨ Applied (env item.2).now run (ruleStep cfg env run item) := by
  obtain ⟨rule, k⟩ := item
  unfold ruleStep
  cases happly : applyAction cfg (env k) rule run with
  | error e => exact .inl rfl
  | ok run' =>
    simp only [applyAction] at happly
    split at happly
    · split at happly
      · cases happly
        exact .inl rfl
      · split at happly
        · cases happly
        · rename_i target _
          split at happly
          · cases happly
          · rename_i db hbody
            cases happly
            obtain ⟨m, hm, rfl⟩ := AuditService.of_audited hbody
            cases hm
            exact .inr (.priority target rfl rfl rfl)
    · split at happly
      · cases happly
        exact .inl rfl
      · split at happly
        · cases happly
        · split at happly
          · cases happly
          · split at happly
            · cases happly
            · rename_i db hbody
              cases happly
              obtain ⟨m, hm, rfl⟩ := AuditService.of_audited hbody
              cases hm
              exact .inr (.assignee rule.actionValue rfl rfl rfl)
    · split at happly
      · cases happly
      · rename_i db hbody
        cases happly
        obtain ⟨m, hm, rfl⟩ := AuditService.of_audited hbody
        have hlabel : m.issues = run.db.issues ∧ m.auditEvents = run.db.auditEvents := by
          unfold IssueLabel.insertOrIgnore at hm
          split at hm
          · cases hm
          · split at hm <;> (cases hm; exact ⟨rfl, rfl⟩)
        exact .inr (.label rule.actionValue rfl hlabel.1 (by rw [← hlabel.2]))

end AutomationService

end Cimp
