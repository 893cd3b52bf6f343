import Cimp.Auth.Grants
import Cimp.Issues.Operation
import Cimp.Issues.SlaEscalation
import Cimp.Notifications.Recipients
import Cimp.Reporter.Portal

namespace Cimp

open Execution Transaction

structure NotifierConfig where
  issues : Config
  auth : AuthConfig
  appUrl : String

inductive Change
  | administer (env : Env) (id : Uuid) (admin : AuthenticatedStaff) (r : AdminRequest)
  | intake (env : Env) (ctx : HandoffContext) (dto : CreateIssueDto) (stored : List StoredFile) (ids : IntakeIds)
  | request (env : Env) (r : Request)
  | bulkUpdate (env : ℕ → Env) (staff : AuthenticatedStaff) (dto : BulkUpdateDto)
  | automation (env : ℕ → Env) (issueId : Uuid) (rules : List AutomationRule)
  | watch (staff : AuthenticatedStaff) (issueId : Uuid)
  | unwatch (staff : AuthenticatedStaff) (issueId : Uuid)
  | addComment (env : Env) (staff : AuthenticatedStaff) (issueId : Uuid) (dto : CreateCommentDto) (id : Uuid)
  | reply (env : Env) (ctx : HandoffContext) (issueId : Uuid) (body : String) (id : Uuid)
  | breach (env : Env) (issueId : Uuid)

namespace Change

/-- What a change leaves in the database, and the events it emits. -/
def run (cfg : NotifierConfig) (db : Db) : Change → Db × List IssueEvent
  | .administer env id admin r => (AdminService.run cfg.auth env id admin r db, [])
  | .intake env ctx dto stored ids =>
    let created := ReporterService.createIssue env ctx dto stored ids db
    (created, if (db.issues.findOne ids.issue).isNone ∧ (created.issues.findOne ids.issue).isSome then
      [.created ids.issue ctx.platformId] else [])
  | .request env r =>
    if env.read then (db, [])
    else match r.load cfg.issues env.now db with
      | .ok (some w) => (w.body env db).elim (db, []) fun db => (db, w.events)
      | _ => (db, [])
  | .bulkUpdate env staff dto =>
    match IssuesService.bulkUpdate cfg.issues env db staff dto with
    | .error _ => (db, [])
    | .ok run => (run.db, run.events)
  | .automation env issueId rules =>
    (AutomationService.applyRules cfg.issues env issueId rules db).elim (db, []) fun run => (run.db, run.events)
  | .watch staff issueId =>
    match PlatformAccessGuard.canActivate db staff staffReadRoles issueId with
    | .error _ => (db, [])
    | .ok _ =>
      match WatchersService.watch staff issueId db with
      | .error _ => (db, [])
      | .ok (db, _) => (db, [])
  | .unwatch staff issueId =>
    match PlatformAccessGuard.canActivate db staff staffReadRoles issueId with
    | .error _ => (db, [])
    | .ok _ => ((WatchersService.unwatch staff issueId db).1, [])
  | .addComment env staff issueId dto id =>
    match CommentsService.addComment env staff issueId dto id db with
    | .error _ => (db, [])
    | .ok (db, e) => (db, [e])
  | .reply env ctx issueId body id =>
    match ReporterService.addComment env ctx issueId body id db with
    | .error _ => (db, [])
    | .ok replied => (replied, (db.issues.findOne issueId).toList.map fun issue =>
        .commentAdded issueId issue.platform id true "" [])
  | .breach env issueId =>
    if env.statement 0 then (db, [])
    else match (SlaEscalationService.select cfg.issues env.now db).find? fun row => row.id = issueId with
      | none => (db, [])
      | some row =>
        match SlaEscalationService.mark env.now row.id db with
        | none => (db, [])
        | some marked =>
          if env.statement 1 then (marked, [])
          else
            ({ marked with auditEvents :=
                marked.auditEvents ++ [(SlaEscalationService.breachAudit row.id).toEvent env.now] },
              [.slaBreached row.id row.platform])

end Change

def staffing (db : Db) : Table StaffUser.id × List UserPlatformRole := (db.staffUsers, db.roles)

def Member (db : Db) (staffId platformId : Uuid) : Prop :=
  (∃ u ∈ db.staffUsers.findOne staffId, u.status = .active) ∧
    ∃ g ∈ db.roles, g.staffUser = staffId ∧ (g.platform = none ∨ g.platform = some platformId)

instance decidableMember (db : Db) (staffId platformId : Uuid) : Decidable (Member db staffId platformId) :=
  instDecidableAnd

theorem member_congr {db db' : Db} (h : staffing db' = staffing db) {staffId platformId : Uuid} :
    Member db' staffId platformId ↔ Member db staffId platformId := by
  simp only [staffing, Prod.mk.injEq] at h
  simp only [Member, h]

theorem Request.Loads.keeps_staffing {now : Time} {db : Db} {r : Request} {w : Write} (h : Loads now db r w) (env : Env) :
    Keeps staffing (w.body env) :=
  h.keeps_body env (fun _ _ => rfl) (fun _ _ => rfl) (fun _ _ => rfl) (fun _ _ => rfl) fun c _ =>
    c.keeps_insert fun _ _ => rfl

theorem ReporterService.createIssue_staffing (env : Env) (ctx : HandoffContext) (dto : CreateIssueDto)
    (stored : List StoredFile) (ids : IntakeIds) (db : Db) :
    staffing (createIssue env ctx dto stored ids db) = staffing db :=
  createIssue_keeps (fun _ _ => rfl) (fun _ _ => rfl) (fun _ _ => rfl) (fun _ _ => rfl) db

namespace AutomationService

theorem keeps_staffing_label (l : IssueLabel) : Keeps staffing l.insertOrIgnore := by
  intro s t h
  unfold IssueLabel.insertOrIgnore at h
  split at h
  · cases h
  · split at h <;> cases h <;> rfl

theorem keeps_staffing_pair {q : Statement Db} (hq : Keeps staffing q) (now : Time) (a : AuditInput) (fails : ℕ → Bool) :
    Keeps staffing (body fails [q, AuditService.record now a]) := by
  refine Keeps.body (fun p hp => ?_) fails
  simp only [List.mem_cons, List.not_mem_nil, or_false] at hp
  rcases hp with rfl | rfl
  · exact hq
  · exact AuditService.keeps_record (fun _ _ => rfl) now a

theorem applyAction_staffing {cfg : Config} {env : Env} {rule : AutomationRule} {run run' : AutomationRun}
    (h : applyAction cfg env rule run = .ok run') : staffing run'.db = staffing run.db := by
  have hissues : ∀ q : Statement Db, (∀ db, ∃ issues, q db = some { db with issues }) → Keeps staffing q := by
    intro q hq s t ht
    obtain ⟨issues, hs⟩ := hq s
    rw [hs] at ht
    cases ht
    rfl
  unfold applyAction at h
  split at h
  · split at h
    · cases h
      rfl
    · split at h
      · cases h
      · split at h
        · cases h
        · rename_i hbody
          cases h
          exact keeps_staffing_pair (hissues _ fun db => ⟨_, rfl⟩) _ _ _ _ _ hbody
  · split at h
    · cases h
      rfl
    · split at h
      · cases h
      · split at h
        · cases h
        · split at h
          · cases h
          · rename_i hbody
            cases h
            exact keeps_staffing_pair (hissues _ fun db => ⟨_, rfl⟩) _ _ _ _ _ hbody
  · split at h
    · cases h
    · rename_i hbody
      cases h
      exact keeps_staffing_pair (keeps_staffing_label _) _ _ _ _ _ hbody

theorem ruleStep_staffing (cfg : Config) (env : ℕ → Env) (run : AutomationRun) (item : AutomationRule × ℕ) :
    staffing (ruleStep cfg env run item).db = staffing run.db := by
  unfold ruleStep
  split
  · rfl
  · exact applyAction_staffing ‹_›

end AutomationService

theorem IssuesService.bulkStep_staffing (cfg : Config) (env : ℕ → Env) (staff : AuthenticatedStaff)
    (change : BulkChange) (run : BulkRun) (item : Uuid × ℕ) :
    staffing (bulkStep cfg env staff change run item).db = staffing run.db := by
  rcases bulkStep_cases cfg env staff change run item with hsame | ⟨w, hwrite, hbody⟩
  · rw [hsame]
  · obtain ⟨r, _, hloads⟩ := Operation.bulkWrite_loads hwrite
    exact hloads.keeps_staffing _ _ _ hbody

theorem IssuesService.bulkUpdate_staffing {cfg : Config} {env : ℕ → Env} {db : Db} {staff : AuthenticatedStaff}
    {dto : BulkUpdateDto} {done : BulkRun} (h : bulkUpdate cfg env db staff dto = .ok done) :
    staffing done.db = staffing db := by
  unfold bulkUpdate at h
  split at h
  · cases h
    rfl
  · obtain ⟨change, _, hexec⟩ := bind_ok h
    cases hexec
    exact exec_of_step (I := fun run : BulkRun => staffing run.db = staffing db)
      (fun run item hsame => (bulkStep_staffing _ _ _ _ run item).trans hsame) rfl _

namespace Change

theorem run_staffing (cfg : NotifierConfig) (db : Db) (c : Change)
    (h : ∀ env id admin r, c ≠ .administer env id admin r) : staffing (c.run cfg db).1 = staffing db := by
  cases c with
  | administer env id admin r => exact absurd rfl (h env id admin r)
  | intake env ctx dto stored ids => exact ReporterService.createIssue_staffing env ctx dto stored ids db
  | request env r =>
    simp only [run]
    split
    · rfl
    · split
      · rename_i w hload
        cases hbody : w.body env db with
        | none => rfl
        | some db' => exact (Request.loads_of_load hload).keeps_staffing _ _ _ hbody
      · rfl
  | bulkUpdate env staff dto =>
    simp only [run]
    split
    · rfl
    · exact IssuesService.bulkUpdate_staffing ‹_›
  | automation env issueId rules =>
    simp only [run, AutomationService.applyRules]
    cases db.issues.findOne issueId with
    | none => rfl
    | some row =>
      exact exec_of_step (I := fun run : AutomationRun => staffing run.db = staffing db)
        (fun run item hsame => (AutomationService.ruleStep_staffing _ _ run item).trans hsame) rfl _
  | watch staff issueId =>
    simp only [run]
    split
    · rfl
    · split
      · rfl
      · rename_i hwatch
        exact IssueWatcher.keeps_insertOrIgnore (fun _ _ => rfl) _ _ _ (WatchersService.watch_ok hwatch)
  | unwatch staff issueId =>
    simp only [run]
    split <;> rfl
  | addComment env staff issueId dto id =>
    simp only [run]
    split
    · rfl
    · rename_i hadd
      obtain ⟨_, _, hbody, _⟩ := CommentsService.addComment_ok hadd
      exact Keeps.body (CommentsService.keeps_addStatements (fun _ _ => rfl) (fun _ _ => rfl) fun _ _ => rfl) _ _ _ hbody
  | reply env ctx issueId body id =>
    simp only [run]
    split
    · rfl
    · rename_i hadd
      obtain ⟨_, hbody⟩ := ReporterService.addComment_ok hadd
      exact Keeps.body (ReporterService.keeps_replyStatements (fun _ _ => rfl) (fun _ _ => rfl) fun _ _ => rfl) _ _ _ hbody
  | breach env issueId =>
    simp only [run]
    split
    · rfl
    · split
      · rfl
      · split
        · rfl
        · rename_i hmark
          obtain ⟨_, _, _, rfl⟩ := SlaEscalationService.mark_some hmark
          split <;> rfl

end Change

end Cimp
