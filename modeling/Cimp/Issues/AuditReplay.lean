import Cimp.Issues.Operation
import Cimp.Lib.Journal

namespace Cimp

open Execution Journal Transaction

def AuditEvent.on (i : Uuid) (field : String) (e : AuditEvent) : Bool :=
  e.issue = some i && e.field = some field

def fieldRows (i : Uuid) (field : String) (audit : List AuditEvent) : List AuditEvent :=
  audit.filter (AuditEvent.on i field)

def FieldReplays (i : Uuid) (field start stored : String) (audit : List AuditEvent) : Prop :=
  Records AuditEvent.oldValue AuditEvent.newValue (some start) (fieldRows i field audit) (some stored)

structure Replays (i : Uuid) (row : Issue) (audit : List AuditEvent) : Prop where
  status : FieldReplays i "status" IssueStatus.new.value row.status.value audit
  priority : FieldReplays i "priority" Priority.medium.value row.priority.value audit

structure Audited (db : Db) : Prop where
  replays : ∀ i row, db.issues.findOne i = some row → Replays i row db.auditEvents
  issues : ∀ i, db.issues.findOne i = none → ∀ e ∈ db.auditEvents, e.issue ≠ some i

theorem fieldRows_append (i : Uuid) (field : String) (audit more : List AuditEvent) :
    fieldRows i field (audit ++ more) = fieldRows i field audit ++ fieldRows i field more :=
  List.filter_append ..

theorem fieldRows_singleton (i : Uuid) (field : String) (e : AuditEvent) :
    fieldRows i field [e] = if e.on i field = true then [e] else [] := by
  rw [fieldRows, List.filter_singleton, Bool.cond_eq_ite]

theorem fieldRows_eq_nil {i : Uuid} {field : String} {audit : List AuditEvent}
    (h : ∀ e ∈ audit, e.issue = some i → e.field ≠ some field) : fieldRows i field audit = [] := by
  rw [fieldRows, List.filter_eq_nil_iff]
  intro e he hon
  simp only [AuditEvent.on, Bool.and_eq_true, decide_eq_true_eq] at hon
  exact h e he hon.1 hon.2

theorem FieldReplays.append_nil {i : Uuid} {field start stored : String} {audit more : List AuditEvent}
    (h : FieldReplays i field start stored audit)
    (hmore : ∀ e ∈ more, e.issue = some i → e.field ≠ some field) :
    FieldReplays i field start stored (audit ++ more) := by
  rw [FieldReplays, fieldRows_append, fieldRows_eq_nil hmore, List.append_nil]
  exact h

theorem FieldReplays.append_single {i : Uuid} {field start stored : String} {audit : List AuditEvent}
    {e : AuditEvent} {value : String} (h : FieldReplays i field start stored audit)
    (hon : e.on i field = true) (hold : e.oldValue = some stored) (hnew : e.newValue = some value) :
    FieldReplays i field start value (audit ++ [e]) := by
  rw [FieldReplays, fieldRows_append, fieldRows_singleton, if_pos hon]
  exact h.append (hnew ▸ Records.single hold)

def Write.Journals (w : Write) (field : String) (old saved : String) : Prop :=
  Records AuditInput.oldValue AuditInput.newValue (some old)
    (w.audit.filter fun a => a.field = some field) (some saved)

theorem Request.Loads.journals {now : Time} {db : Db} {r : Request} {w : Write} (h : Loads now db r w) :
    ∃ row, db.issues.findOne w.issue.id = some row ∧
      w.Journals "status" row.status.value w.issue.status.value ∧
      w.Journals "priority" row.priority.value w.issue.priority.value := by
  cases h with
  | merge hrow =>
    refine ⟨_, Table.findOne_self hrow, ?_, ?_⟩
    · exact Records.single rfl
    · exact Records.nil _
  | @changeStatus _ _ dto row hrow =>
    refine ⟨row, ?_, ?_, ?_⟩
    · rw [IssuesService.statusWrite, IssueEntity.setStatus_id]
      exact Table.findOne_self hrow
    · rw [IssuesService.statusWrite, IssueEntity.setStatus_status]
      exact Records.single rfl
    · rw [IssuesService.statusWrite, IssueEntity.setStatus_priority]
      exact Records.nil _
  | changePriority hrow =>
    refine ⟨_, Table.findOne_self hrow, ?_, ?_⟩
    · exact Records.nil _
    · exact Records.single rfl
  | changeAssignment hrow =>
    refine ⟨_, Table.findOne_self hrow, ?_, ?_⟩
    · exact Records.nil _
    · exact Records.nil _
  | @webhook _ _ _ row target _ _ hlinked =>
    refine ⟨row, ?_, ?_, ?_⟩
    · rw [JiraInboundService.webhookWrite, IssueEntity.setStatus_id]
      exact JiraInboundService.findByJiraKey_some hlinked
    · rw [JiraInboundService.webhookWrite, IssueEntity.setStatus_status]
      exact Records.single rfl
    · rw [JiraInboundService.webhookWrite, IssueEntity.setStatus_priority]
      exact Records.nil _

theorem FieldReplays.write {i : Uuid} {field start old saved : String} {audit : List AuditEvent} {w : Write}
    (h : FieldReplays i field start old audit) (hissue : ∀ a ∈ w.audit, a.issueId = some i)
    (hjournals : w.Journals field old saved) (now : Time) :
    FieldReplays i field start saved (audit ++ w.audit.map (AuditInput.toEvent now)) := by
  have hrows : fieldRows i field (w.audit.map (AuditInput.toEvent now)) =
      (w.audit.filter fun a => a.field = some field).map (AuditInput.toEvent now) := by
    rw [fieldRows, List.filter_map]
    refine congrArg _ (List.filter_congr fun a ha => ?_)
    simp [AuditEvent.on, AuditInput.toEvent, hissue a ha]
  rw [FieldReplays, fieldRows_append, hrows]
  exact h.append (Records.map hjournals)

theorem Audited.write {db db' : Db} {env : Env} {r : Request} {w : Write} (h : Audited db)
    (hloads : Request.Loads env.now db r w) (hbody : w.body env db = some db') : Audited db' := by
  obtain ⟨row, hrow, hstatus, hpriority⟩ := hloads.journals
  have hissue : ∀ a ∈ w.audit, a.issueId = some w.issue.id := fun a ha => (hloads.audit a ha).1
  have haudit := (Write.body_spec hbody).2
  constructor
  · intro i saved hsaved
    rw [Write.findOne_of_body hbody] at hsaved
    rw [haudit]
    split at hsaved
    · rename_i hi
      subst hi
      rw [hrow] at hsaved
      cases hsaved
      have hreplays := h.replays _ row hrow
      refine ⟨?_, ?_⟩
      · rw [IssueEntity.written_columns]
        exact hreplays.status.write hissue hstatus _
      · rw [IssueEntity.written_columns]
        exact hreplays.priority.write hissue hpriority _
    · rename_i hi
      have hreplays := h.replays i saved hsaved
      have hmore : ∀ field, ∀ e ∈ w.audit.map (AuditInput.toEvent env.now),
          e.issue = some i → e.field ≠ some field := by
        intro field e he heq
        rw [hloads.issue_of_mem_audit he, Option.some_inj] at heq
        exact absurd heq.symm hi
      exact ⟨hreplays.status.append_nil (hmore _), hreplays.priority.append_nil (hmore _)⟩
  · intro i hnone e he heq
    rw [Write.findOne_of_body hbody] at hnone
    rw [haudit] at he
    split at hnone
    · rename_i hi
      subst hi
      rw [hrow] at hnone
      cases hnone
    · rename_i hi
      rcases List.mem_append.mp he with he | he
      · exact h.issues i hnone e he heq
      · rw [hloads.issue_of_mem_audit he, Option.some_inj] at heq
        exact hi heq.symm

theorem Audited.intake {db db' : Db} {now : Time} {ctx : HandoffContext} {dto : CreateIssueDto}
    {reporter : Uuid} {ids : IntakeIds} {e : AuditEvent} (h : Audited db)
    (hinsert : db.issues.insert (ReporterService.newIssue now ctx dto reporter ids) = some db'.issues)
    (hissue : e.issue = some ids.issue) (hfield : e.field = none)
    (haudit : db'.auditEvents = db.auditEvents ++ [e]) : Audited db' := by
  have hmore : ∀ i field, ∀ e' ∈ [e], e'.issue = some i → e'.field ≠ some field := by
    intro i field e' he' _
    obtain rfl := List.mem_singleton.mp he'
    simp [hfield]
  constructor
  · intro i row hrow
    rw [Table.findOne_insert hinsert] at hrow
    rw [haudit]
    split at hrow
    · rename_i hi
      cases hrow
      -- a fresh issue has no rows before its own
      have hbefore : ∀ field, ∀ e' ∈ db.auditEvents, e'.issue = some i → e'.field ≠ some field := by
        intro field e' he' heq
        exact absurd heq (h.issues i (hi ▸ Table.insert_fresh hinsert) e' he')
      refine ⟨FieldReplays.append_nil ?_ (hmore i _), FieldReplays.append_nil ?_ (hmore i _)⟩
      · rw [FieldReplays, fieldRows_eq_nil (hbefore _)]
        exact Records.nil _
      · rw [FieldReplays, fieldRows_eq_nil (hbefore _)]
        exact Records.nil _
    · have hreplays := h.replays i row hrow
      exact ⟨hreplays.status.append_nil (hmore i _), hreplays.priority.append_nil (hmore i _)⟩
  · intro i hnone e' he' heq
    rw [Table.findOne_insert hinsert] at hnone
    rw [haudit] at he'
    split at hnone
    · cases hnone
    · rename_i hi
      rcases List.mem_append.mp he' with he' | he'
      · exact h.issues i hnone e' he' heq
      · obtain rfl := List.mem_singleton.mp he'
        rw [hissue] at heq
        exact hi (Option.some.inj heq).symm

theorem Audited.update {db db' : Db} {id : Uuid} {f : Issue → Issue} {hf : ∀ r, (f r).id = r.id}
    {more : List AuditEvent} (h : Audited db) (hissues : db'.issues = db.issues.update id f hf)
    (haudit : db'.auditEvents = db.auditEvents ++ more)
    (hsome : more ≠ [] → ∃ row, db.issues.findOne id = some row) (hmore : ∀ e ∈ more, e.issue = some id)
    (hrow : ∀ row, db.issues.findOne id = some row → Replays id row db.auditEvents →
      Replays id (f row) (db.auditEvents ++ more)) : Audited db' := by
  constructor
  · intro i row hi
    rw [hissues, Table.findOne_update] at hi
    rw [haudit]
    split at hi
    · rename_i heq
      subst heq
      obtain ⟨old, hold, rfl⟩ := Option.map_eq_some_iff.mp hi
      exact hrow old hold (h.replays i old hold)
    · rename_i hne
      have hother : ∀ field, ∀ e ∈ more, e.issue = some i → e.field ≠ some field := by
        intro field e he heq
        rw [hmore e he] at heq
        exact absurd (Option.some.inj heq).symm hne
      have hreplays := h.replays i row hi
      exact ⟨hreplays.status.append_nil (hother _), hreplays.priority.append_nil (hother _)⟩
  · intro i hnone e he heq
    rw [hissues, Table.findOne_update] at hnone
    rw [haudit] at he
    have hnone : db.issues.findOne i = none := by
      split at hnone
      · exact Option.map_eq_none_iff.mp hnone
      · exact hnone
    rcases List.mem_append.mp he with he | he
    · exact h.issues i hnone e he heq
    · rw [hmore e he] at heq
      cases heq
      obtain ⟨row, hrow⟩ := hsome (List.ne_nil_of_mem he)
      rw [hnone] at hrow
      cases hrow

theorem Audited.rule {now : Time} {run run' : AutomationRun} (h : Audited run.db)
    (hmirrors : Operation.Mirrors run) (happlied : AutomationService.Applied now run run') :
    Audited run'.db := by
  obtain ⟨row, hrow, hpriority⟩ := hmirrors
  cases happlied with
  | priority target _ hissues haudit =>
    refine h.update hissues haudit (fun _ => ⟨row, hrow⟩) (by simp [AutomationService.priorityAudit,
      AuditInput.toEvent]) fun stored hstored hreplays => ⟨?_, ?_⟩
    · exact hreplays.status.append_nil (by simp [AutomationService.priorityAudit, AuditInput.toEvent])
    · rw [hrow] at hstored
      cases hstored
      refine hreplays.priority.append_single ?_ ?_ rfl
      · simp [AuditEvent.on, AutomationService.priorityAudit, AuditInput.toEvent]
      · simp [AutomationService.priorityAudit, AuditInput.toEvent, hpriority]
  | assignee target _ hissues haudit =>
    refine h.update hissues haudit (fun _ => ⟨row, hrow⟩) (by simp [AutomationService.assignedAudit,
      AuditInput.toEvent]) fun stored hstored hreplays => ⟨?_, ?_⟩
    · exact hreplays.status.append_nil (by simp [AutomationService.assignedAudit, AuditInput.toEvent])
    · exact hreplays.priority.append_nil (by simp [AutomationService.assignedAudit, AuditInput.toEvent])
  | label label _ hissues haudit =>
    have hupdate : run'.db.issues = run.db.issues.update run.issue.id id fun _ => rfl := by
      rw [hissues]
      exact (Table.update_of_fixed _ _ id (fun _ => rfl) fun _ _ => rfl).symm
    refine h.update hupdate haudit (fun _ => ⟨row, hrow⟩) (by simp [AutomationService.labelAudit,
      AuditInput.toEvent]) fun stored hstored hreplays => ⟨?_, ?_⟩
    · exact hreplays.status.append_nil (by simp [AutomationService.labelAudit, AuditInput.toEvent])
    · exact hreplays.priority.append_nil (by simp [AutomationService.labelAudit, AuditInput.toEvent])

theorem Audited.congr {db db' : Db} (h : Audited db) (hissues : db'.issues = db.issues)
    (haudit : db'.auditEvents = db.auditEvents) : Audited db' := by
  constructor
  · rw [hissues, haudit]
    exact h.replays
  · rw [hissues, haudit]
    exact h.issues

theorem Audited.synced {db : Db} (h : Audited db) (now : Time) (id : Uuid) (key : Option String)
    (status : JiraSyncStatus) : Audited (JiraListener.update now id key status db) := by
  apply h.update (JiraListener.update_issues ..) (List.append_nil _).symm (by simp) (by simp)
  intro row _ hreplays
  rw [List.append_nil]
  exact ⟨hreplays.status, hreplays.priority⟩

theorem Audited.run {cfg : Config} {db : Db} (h : Audited db) (op : Operation) : Audited (op.run cfg db) := by
  refine Operation.run_preserves ?_ ?_ ?_ ?_ ?_ h
  · intro db db' hissues haudit hs
    exact hs.congr hissues haudit
  · intro db db' now ctx dto reporter ids e hinsert hissue hfield _ haudit hs
    exact hs.intake hinsert hissue hfield haudit
  · intro db db' env r w _ hloads hbody hs
    exact hs.write hloads hbody
  · intro now run run' hmirrors happlied hs
    exact hs.rule hmirrors happlied
  · intro db now id key status hs
    exact hs.synced now id key status

theorem Audited.of_unpopulated {db : Db} (hissues : ∀ i, db.issues.findOne i = none)
    (haudit : ∀ e ∈ db.auditEvents, e.issue = none) : Audited db := by
  constructor
  · intro i row hrow
    rw [hissues] at hrow
    cases hrow
  · intro i _ e he heq
    rw [haudit e he] at heq
    cases heq

def Unchanged (db db' : Db) : Prop := db'.issues = db.issues ∧ db'.auditEvents = db.auditEvents

/-- Each transaction of an operation that fails leaves the issues and their audit trail as they were:
the operation's own, that of each id of a batch and that of each rule of an automation run. -/
def Operation.FailuresRollBack (cfg : Config) (db : Db) : Operation → Prop
  | .intake env ctx dto stored ids =>
    ∀ db₁ reporter, ReporterService.upsertReporter ctx ids.reporter db = some (db₁, reporter) →
      body env.statement (ReporterService.persistIssue env.now ctx dto reporter stored ids) db₁ = none →
        Unchanged db (ReporterService.createIssue env ctx dto stored ids db)
  | .request env r =>
    ∀ w, r.load cfg env.now db = .ok (some w) → w.body env db = none → Unchanged db (r.run cfg env db)
  | .bulkUpdate env staff dto =>
    ∀ change, IssuesService.bulkChange cfg dto = .ok change →
      EveryStep (IssuesService.bulkStep cfg env staff change) (fun run item =>
        ∀ w, IssuesService.bulkWrite cfg (env item.2) run.db staff change item.1 = .ok w →
          w.body (env item.2) run.db = none →
            Unchanged run.db (IssuesService.bulkStep cfg env staff change run item).db)
        ⟨db, 0, [], []⟩ dto.ids.zipIdx
  | .automation env issueId rules =>
    ∀ row, db.issues.findOne issueId = some row →
      EveryStep (AutomationService.ruleStep cfg env) (fun run item =>
        ∀ message, AutomationService.applyAction cfg (env item.2) item.1 run = .error message →
          Unchanged run.db (AutomationService.ruleStep cfg env run item).db)
        ⟨row.toEntity { assignee := true }, db, []⟩ rules.zipIdx
  | .jiraSync .. => True

theorem Operation.failuresRollBack (cfg : Config) (db : Db) (op : Operation) : op.FailuresRollBack cfg db := by
  cases op with
  | intake env ctx dto stored ids =>
    intro db₁ reporter hupsert hfail
    obtain ⟨hissues, haudit⟩ := ReporterService.upsertReporter_issues hupsert
    unfold ReporterService.createIssue
    split
    · exact ⟨rfl, rfl⟩
    · rw [hupsert]
      simp only [commit_of_none hfail]
      exact ⟨hissues, haudit⟩
  | request env r =>
    intro w hload hfail
    unfold Request.run
    split
    · exact ⟨rfl, rfl⟩
    · simp only [hload, Write.commit, hfail, Option.getD_none]
      exact ⟨rfl, rfl⟩
  | bulkUpdate env staff dto =>
    intro change _
    apply everyStep_iff_initial.mpr
    intro pre item _ w hwrite hfail
    simp only [IssuesService.bulkStep, hwrite, hfail]
    exact ⟨rfl, rfl⟩
  | automation env issueId rules =>
    intro row _
    apply everyStep_iff_initial.mpr
    intro pre item _ message hfail
    simp only [AutomationService.ruleStep, hfail]
    exact ⟨rfl, rfl⟩
  | jiraSync => trivial

/-- From a database without issues, every sequence of operations keeps an audit trail that replays to
the stored status and priority of every issue, and whatever fails is rolled back. -/
theorem audit_trail_replays (cfg : Config) (db : Db) (hissues : ∀ i, db.issues.findOne i = none)
    (haudit : ∀ e ∈ db.auditEvents, e.issue = none) (ops : List Operation) :
    Always (Operation.run cfg)
        (fun db => ∀ i row, db.issues.findOne i = some row → Replays i row db.auditEvents) db ops ∧
      EveryStep (Operation.run cfg) (fun db op => op.FailuresRollBack cfg db) db ops := by
  refine ⟨(always_of_step (fun _ op h => h.run op) (Audited.of_unpopulated hissues haudit) ops).mono fun _ h => h.replays, ?_⟩
  exact everyStep_iff_initial.mpr fun pre op _ => op.failuresRollBack cfg _

namespace Sample

def busyDay : List Operation :=
  [.intake { now := 0 } context ⟨"It does not load", none⟩ [] ⟨"A", "reporter", "A"⟩,
    .intake { now := 1 } context ⟨"Nor does this", none⟩ [] ⟨"B", "reporter", "B"⟩,
    .jiraSync { now := 2 } "A" (some "SUP-1"),
    .automation (fun k => { now := k + 3 }) "A"
      [⟨"rule-1", "P", true, .issueCreated, none, .setPriority, "HIGH"⟩,
        ⟨"rule-2", "P", true, .issueCreated, none, .addLabel, "no-label"⟩,
        ⟨"rule-3", "P", true, .issueCreated, none, .setPriority, "LOW"⟩],
    .bulkUpdate (fun k => { now := k + 6 }) admin ⟨["A", "B"], .status, some "IN_PROGRESS"⟩,
    .request { now := 8, statement := fun k => k = 1 } (.changePriority admin "B" ⟨.critical, 2⟩),
    .request { now := 9 } (.merge admin "B" ⟨"A", 2⟩ ⟨"link", "comment-1", "comment-2"⟩),
    .request { now := 10 } (.webhook ⟨some "SUP-1", some "done"⟩)]

end Sample

theorem audit_trail_replays_busyDay :
    Always (Operation.run Sample.config)
        (fun db => ∀ i row, db.issues.findOne i = some row → Replays i row db.auditEvents) .empty
        Sample.busyDay ∧
      EveryStep (Operation.run Sample.config) (fun db op => op.FailuresRollBack Sample.config db) .empty
        Sample.busyDay :=
  audit_trail_replays Sample.config .empty (fun _ => rfl) (fun _ h => by cases h) Sample.busyDay

end Cimp
