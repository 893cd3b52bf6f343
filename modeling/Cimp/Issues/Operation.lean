import Cimp.Issues.Automation
import Cimp.Issues.BulkUpdate
import Cimp.Issues.Request
import Cimp.Jira.Outbound
import Cimp.Reporter.Intake

namespace Cimp

open Execution

inductive Operation
  | intake (env : Env) (ctx : HandoffContext) (dto : CreateIssueDto) (stored : List StoredFile)
      (ids : IntakeIds)
  | request (env : Env) (r : Request)
  | bulkUpdate (env : ℕ → Env) (staff : AuthenticatedStaff) (dto : BulkUpdateDto)
  | automation (env : ℕ → Env) (issueId : Uuid) (rules : List AutomationRule)
  | jiraSync (env : Env) (issueId : Uuid) (created : Option String)

def Request.run (cfg : Config) (env : Env) (db : Db) (r : Request) : Db :=
  if env.read then db
  else match r.load cfg env.now db with
    | .ok (some w) => w.commit env db
    | _ => db

namespace Operation

open IssuesService AutomationService

def run (cfg : Config) (db : Db) : Operation → Db
  | .intake env ctx dto stored ids => ReporterService.createIssue env ctx dto stored ids db
  | .request env r => r.run cfg env db
  | .bulkUpdate env staff dto =>
    match IssuesService.bulkUpdate cfg env db staff dto with
    | .error _ => db
    | .ok run => run.db
  | .automation env issueId rules =>
    match applyRules cfg env issueId rules db with
    | none => db
    | some run => run.db
  | .jiraSync env issueId created => JiraListener.onIssueCreated cfg env issueId created db

variable {cfg : Config}

theorem request_cases (cfg : Config) (env : Env) (db : Db) (r : Request) :
    r.run cfg env db = db ∨ ∃ w, Request.Loads env.now db r w ∧
      env.read = false ∧ w.body env db = some (r.run cfg env db) := by
  unfold Request.run
  split
  · exact .inl rfl
  · rename_i hread
    split
    · rename_i w hload
      rcases w.commit_cases env db with ⟨_, hc⟩ | ⟨t, ht, hc⟩
      · exact .inl hc
      · rw [hc]
        exact .inr ⟨w, Request.loads_of_load hload, by simpa using hread, ht⟩
    · exact .inl rfl

theorem bulkWrite_loads {env : Env} {db : Db} {staff : AuthenticatedStaff} {change : BulkChange} {id : Uuid}
    {w : Write} (h : bulkWrite cfg env db staff change id = .ok w) :
    ∃ r, (∀ payload, r ≠ .webhook payload) ∧ Request.Loads env.now db r w := by
  obtain ⟨row, hrow, hw⟩ := bulkWrite_ok h
  rcases hw with ⟨target, htransition, rfl⟩ | ⟨target, hdiffers, rfl⟩ | ⟨target, rfl⟩
  · exact ⟨.changeStatus staff id ⟨target, row.version⟩, by simp, .changeStatus hrow rfl htransition⟩
  · exact ⟨.changePriority staff id ⟨target, row.version⟩, by simp, .changePriority hrow rfl hdiffers⟩
  · exact ⟨.changeAssignment staff id ⟨target, row.version⟩, by simp, .changeAssignment hrow rfl⟩

def Mirrors (run : AutomationRun) : Prop :=
  ∃ row, run.db.issues.findOne run.issue.id = some row ∧ row.priority = run.issue.priority

theorem Mirrors.applied {now : Time} {run run' : AutomationRun} (h : Mirrors run)
    (happlied : Applied now run run') : Mirrors run' := by
  obtain ⟨row, hrow, hpriority⟩ := h
  cases happlied with
  | priority target hissue hissues _ =>
    refine ⟨row.withPriority now target, ?_, by rw [hissue]; rfl⟩
    rw [hissues, hissue, Table.findOne_update_self, hrow]
    rfl
  | assignee target hissue hissues _ =>
    refine ⟨row.withAssignee now target, ?_, by rw [hissue]; exact hpriority⟩
    rw [hissues, hissue, Table.findOne_update_self, hrow]
    rfl
  | label _ hissue hissues _ => exact ⟨row, by rw [hissues, hissue, hrow], by rw [hissue]; exact hpriority⟩

/-- The rule for one operation: a property of the issues and their audit trail holds after it when
each of the transactions it can be made of keeps the property. -/
theorem run_preserves {P : Db → Prop} {op : Operation} {db : Db}
    (congr : ∀ db db' : Db, db'.issues = db.issues → db'.auditEvents = db.auditEvents → P db → P db')
    (intake : ∀ (db db' : Db) now ctx dto reporter ids (e : AuditEvent),
      db.issues.insert (ReporterService.newIssue now ctx dto reporter ids) = some db'.issues →
      e.issue = some ids.issue → e.field = none → e.action = "ISSUE_CREATED" →
      db'.auditEvents = db.auditEvents ++ [e] → P db → P db')
    (write : ∀ (db db' : Db) env r w, (op = .request env r ∨ ∀ payload, r ≠ .webhook payload) →
      Request.Loads env.now db r w → w.body env db = some db' → P db → P db')
    (rule : ∀ now run run', Mirrors run → Applied now run run' → P run.db → P run'.db)
    (sync : ∀ db now id key status, P db → P (JiraListener.update now id key status db))
    (h : P db) : P (op.run cfg db) := by
  cases op with
  | intake env ctx dto stored ids =>
    rcases ReporterService.createIssue_cases env ctx dto stored ids db with
      ⟨hissues, haudit⟩ | ⟨reporter, hinsert, e, hissue, hfield, haction, haudit⟩
    · exact congr _ _ hissues haudit h
    · exact intake _ _ _ _ _ _ _ e hinsert hissue hfield haction haudit h
  | request env r =>
    rcases request_cases cfg env db r with hsame | ⟨w, hloads, _, hbody⟩
    · simpa only [run, hsame] using h
    · exact write _ _ env r w (.inl rfl) hloads hbody h
  | bulkUpdate env staff dto =>
    have hloop : ∀ change, P (exec (bulkStep cfg env staff change) ⟨db, 0, [], []⟩ dto.ids.zipIdx).db := by
      intro change
      refine exec_of_step (I := fun run : BulkRun => P run.db) (fun run item hrun => ?_) h _
      rcases bulkStep_cases cfg env staff change run item with hsame | ⟨w, hwrite, hbody⟩
      · simpa only [hsame] using hrun
      · obtain ⟨r, hother, hloads⟩ := bulkWrite_loads hwrite
        exact write _ _ (env item.2) r w (.inr hother) hloads hbody hrun
    simp only [run]
    unfold IssuesService.bulkUpdate
    split
    · exact h
    · rename_i hrun
      split at hrun
      · cases hrun
        exact h
      · obtain ⟨change, _, hexec⟩ := bind_ok hrun
        cases hexec
        exact hloop change
  | automation env issueId rules =>
    simp only [run]
    unfold applyRules
    cases hrow : db.issues.findOne issueId with
    | none => exact h
    | some row =>
      have hmirrors : Mirrors ⟨row.toEntity { assignee := true }, db, []⟩ :=
        ⟨row, Table.findOne_self hrow, rfl⟩
      have hstep : ∀ (run : AutomationRun) item, Mirrors run ∧ P run.db →
          Mirrors (ruleStep cfg env run item) ∧ P (ruleStep cfg env run item).db := by
        intro run item hrun
        rcases ruleStep_cases cfg env run item with hsame | happlied
        · simpa only [hsame] using hrun
        · exact ⟨hrun.1.applied happlied, rule _ _ _ hrun.1 happlied hrun.2⟩
      have hloop := exec_of_step (I := fun run : AutomationRun => Mirrors run ∧ P run.db) hstep ⟨hmirrors, h⟩
        rules.zipIdx
      exact hloop.2
  | jiraSync env issueId created => exact JiraListener.onIssueCreated_preserves sync cfg env issueId created h

end Operation

end Cimp
