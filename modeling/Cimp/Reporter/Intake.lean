import Cimp.Issues.Write

namespace Cimp

open Transaction

structure HandoffContext where
  platformId : Uuid
  portalUserId : String
  name : String
  email : String
  locale : Option String
deriving DecidableEq, Repr

structure CreateIssueDto where
  description : String
  context : Option String
deriving DecidableEq, Repr

structure StoredFile where
  id : Uuid
  storageKey : String
  filename : String
  contentType : String
  sizeBytes : ℕ
deriving DecidableEq, Repr

structure IntakeIds where
  issue : Uuid
  reporter : Uuid
  referenceNo : String
deriving DecidableEq, Repr

namespace ReporterService

def findReporter (db : Db) (ctx : HandoffContext) : Option Reporter :=
  db.reporters.rows.find? fun r => r.platform = ctx.platformId && r.portalUserId = ctx.portalUserId

def refreshed (ctx : HandoffContext) (r : Reporter) : Reporter :=
  { r with name := ctx.name, email := ctx.email }

def upsertReporter (ctx : HandoffContext) (id : Uuid) (db : Db) : Option (Db × Uuid) :=
  match findReporter db ctx with
  | some r =>
    some ({ db with reporters := db.reporters.update r.id (refreshed ctx) fun _ => rfl }, r.id)
  | none =>
    (db.reporters.insert ⟨id, ctx.platformId, ctx.portalUserId, ctx.name, ctx.email⟩).map
      fun reporters => ({ db with reporters }, id)

def newIssue (now : Time) (ctx : HandoffContext) (dto : CreateIssueDto) (reporter : Uuid)
    (ids : IntakeIds) : Issue where
  id := ids.issue
  referenceNo := ids.referenceNo
  platform := ctx.platformId
  reporter := reporter
  assignee := none
  description := dto.description
  publiclyVisible := false
  publicTitle := none
  context := dto.context
  status := .new
  priority := .medium
  duplicateOf := none
  jiraIssueKey := none
  jiraSyncStatus := .notSynced
  version := 1
  createdAt := now
  slaStartedAt := now
  slaBreachedAt := none
  updatedAt := now
  resolvedAt := none
  closedAt := none

def insertIssue (i : Issue) : Statement Db := fun db =>
  if db.issues.rows.any (fun r => r.referenceNo = i.referenceNo) then none
  else (db.issues.insert i).map fun issues => { db with issues }

def newAttachment (now : Time) (issue : Uuid) (f : StoredFile) : Attachment where
  id := f.id
  issue := issue
  storageKey := f.storageKey
  filename := f.filename
  contentType := f.contentType
  sizeBytes := f.sizeBytes
  scanStatus := .pending
  jiraSynced := false
  createdAt := now

def insertAttachment (now : Time) (issue : Uuid) (f : StoredFile) : Statement Db := fun db =>
  (db.attachments.insert (newAttachment now issue f)).map fun attachments => { db with attachments }

def persistIssue (now : Time) (ctx : HandoffContext) (dto : CreateIssueDto) (reporter : Uuid)
    (stored : List StoredFile) (ids : IntakeIds) : List (Statement Db) :=
  insertIssue (newIssue now ctx dto reporter ids) ::
    (stored.map (insertAttachment now ids.issue) ++
      [AuditService.record now {
        issueId := ids.issue
        actorType := .reporter
        actorId := reporter
        action := "ISSUE_CREATED" }])

/-- The database side of `createIssue`: the reporter row, then the issue in one transaction. The
attempts that lose on the reference number leave nothing, so only the last one shows. -/
def createIssue (env : Env) (ctx : HandoffContext) (dto : CreateIssueDto) (stored : List StoredFile)
    (ids : IntakeIds) (db : Db) : Db :=
  if env.read then db
  else match upsertReporter ctx ids.reporter db with
    | none => db
    | some (db, reporter) =>
      Transaction.commit env.statement (persistIssue env.now ctx dto reporter stored ids) db

theorem insertIssue_some {i : Issue} {s t : Db} (h : insertIssue i s = some t) :
    ∃ issues, s.issues.insert i = some issues ∧ t = { s with issues } := by
  unfold insertIssue at h
  split at h
  · cases h
  · obtain ⟨issues, hissues, rfl⟩ := Option.map_eq_some_iff.mp h
    exact ⟨issues, hissues, rfl⟩

theorem keeps_insertAttachment {β : Type} {π : Db → β} (now : Time) (issue : Uuid) (f : StoredFile)
    (h : ∀ db as, π { db with attachments := as } = π db) : Keeps π (insertAttachment now issue f) := by
  intro s t hq
  simp only [insertAttachment, Option.map_eq_some_iff] at hq
  obtain ⟨as, _, rfl⟩ := hq
  exact h _ _

variable {env : Env} {ctx : HandoffContext} {dto : CreateIssueDto} {stored : List StoredFile}
  {ids : IntakeIds}

theorem upsertReporter_keeps {β : Type} {π : Db → β} (h : ∀ db reporters, π { db with reporters } = π db)
    {id reporter : Uuid} {s t : Db} (hupsert : upsertReporter ctx id s = some (t, reporter)) : π t = π s := by
  unfold upsertReporter at hupsert
  split at hupsert
  · cases hupsert
    exact h s _
  · obtain ⟨reporters, _, he⟩ := Option.map_eq_some_iff.mp hupsert
    cases he
    exact h s reporters

theorem upsertReporter_issues {id reporter : Uuid} {s t : Db}
    (h : upsertReporter ctx id s = some (t, reporter)) :
    t.issues = s.issues ∧ t.auditEvents = s.auditEvents :=
  ⟨upsertReporter_keeps (fun _ _ => rfl) h, upsertReporter_keeps (fun _ _ => rfl) h⟩

theorem createIssue_keeps {β : Type} {π : Db → β} (hreporters : ∀ db reporters, π { db with reporters } = π db)
    (hissues : ∀ db issues, π { db with issues } = π db)
    (hattachments : ∀ db attachments, π { db with attachments } = π db)
    (haudit : ∀ db auditEvents, π { db with auditEvents } = π db) (db : Db) :
    π (createIssue env ctx dto stored ids db) = π db := by
  have hkeep : ∀ reporter, ∀ q ∈ persistIssue env.now ctx dto reporter stored ids, Keeps π q := by
    intro reporter q hq
    simp only [persistIssue, List.mem_cons, List.mem_append, List.mem_map, List.not_mem_nil, or_false] at hq
    rcases hq with rfl | ⟨f, _, rfl⟩ | rfl
    · intro s t h
      obtain ⟨issues, _, rfl⟩ := insertIssue_some h
      exact hissues s issues
    · exact keeps_insertAttachment _ _ _ hattachments
    · intro s t h
      cases h
      exact haudit s _
  unfold createIssue
  split
  · rfl
  · split
    · rfl
    · rename_i m reporter hupsert
      rw [Keeps.commit (hkeep reporter)]
      exact upsertReporter_keeps hreporters hupsert

theorem persistIssue_spec {fails : ℕ → Bool} {now : Time} {reporter : Uuid} {s t : Db}
    (h : Transaction.body fails (persistIssue now ctx dto reporter stored ids) s = some t) :
    s.issues.insert (newIssue now ctx dto reporter ids) = some t.issues ∧
      ∃ e : AuditEvent, e.issue = some ids.issue ∧ e.field = none ∧ e.action = "ISSUE_CREATED" ∧
        t.auditEvents = s.auditEvents ++ [e] := by
  obtain ⟨m, hm, hrest⟩ := body_cons h
  obtain ⟨issues, hissues, rfl⟩ := insertIssue_some hm
  obtain ⟨m', hattach, haudit⟩ := body_append hrest
  have hkeep : ∀ q ∈ stored.map (insertAttachment now ids.issue),
      Keeps (fun db => (db.issues, db.auditEvents)) q := by
    simp only [List.mem_map]
    rintro q ⟨f, _, rfl⟩
    exact keeps_insertAttachment _ _ _ fun _ _ => rfl
  have hframe := Keeps.body hkeep _ _ _ hattach
  simp only [Prod.mk.injEq] at hframe
  have hrecord := body_one haudit
  cases hrecord
  exact ⟨by simpa [hframe.1] using hissues, _, rfl, rfl, rfl, by rw [hframe.2]⟩

theorem createIssue_cases (env : Env) (ctx : HandoffContext) (dto : CreateIssueDto)
    (stored : List StoredFile) (ids : IntakeIds) (db : Db) :
    ((createIssue env ctx dto stored ids db).issues = db.issues ∧
      (createIssue env ctx dto stored ids db).auditEvents = db.auditEvents) ∨
    ∃ reporter, db.issues.insert (newIssue env.now ctx dto reporter ids) =
        some (createIssue env ctx dto stored ids db).issues ∧
      ∃ e : AuditEvent, e.issue = some ids.issue ∧ e.field = none ∧ e.action = "ISSUE_CREATED" ∧
        (createIssue env ctx dto stored ids db).auditEvents = db.auditEvents ++ [e] := by
  unfold createIssue
  split
  · exact .inl ⟨rfl, rfl⟩
  · split
    · exact .inl ⟨rfl, rfl⟩
    · rename_i db' reporter hupsert
      obtain ⟨hissues, haudit⟩ := upsertReporter_issues hupsert
      rcases Transaction.commit_cases env.statement
        (persistIssue env.now ctx dto reporter stored ids) db' with ⟨_, hc⟩ | ⟨t, ht, hc⟩
      · rw [hc]; exact .inl ⟨hissues, haudit⟩
      · rw [hc]
        obtain ⟨hinsert, hevent⟩ := persistIssue_spec ht
        exact .inr ⟨reporter, hissues ▸ hinsert, haudit ▸ hevent⟩

end ReporterService

def Sample.context : HandoffContext := ⟨"P", "portal-user", "Reporter", "reporter@portal", none⟩

end Cimp
