import Cimp.Common
import Cimp.Lib.Table
import Cimp.Lib.Transaction

namespace Cimp

/-- The columns of an issue that every load of the entity carries and every save compares. -/
structure IssueColumns where
  referenceNo : String
  description : String
  publiclyVisible : Bool
  publicTitle : Option String
  context : Option String
  status : IssueStatus
  priority : Priority
  jiraIssueKey : Option String
  jiraSyncStatus : JiraSyncStatus
  createdAt : Time
  slaStartedAt : Time
  slaBreachedAt : Option Time
  resolvedAt : Option Time
  closedAt : Option Time
deriving DecidableEq, Repr

structure Issue extends IssueColumns where
  id : Uuid
  platform : Uuid
  reporter : Uuid
  assignee : Option Uuid
  duplicateOf : Option Uuid
  version : ℕ
  updatedAt : Time
deriving DecidableEq, Repr

structure Comment where
  id : Uuid
  issue : Uuid
  author : Option Uuid
  authorType : ActorType
  authorName : Option String
  body : String
  visibility : CommentVisibility
  sourceLocale : Option String
  translations : List (String × String)
  createdAt : Time
  editedAt : Option Time
deriving DecidableEq, Repr

structure AuditEvent where
  issue : Option Uuid
  actorType : ActorType
  actorId : Option String
  action : String
  field : Option String
  oldValue : Option String
  newValue : Option String
  createdAt : Time
deriving DecidableEq, Repr

structure IssueLink where
  id : Uuid
  sourceIssue : Uuid
  targetIssue : Uuid
  type : IssueLinkType
  createdBy : Option Uuid
  createdAt : Time
deriving DecidableEq, Repr

structure IssueWatcher where
  issue : Uuid
  staffUser : Uuid
deriving DecidableEq, Repr

structure StaffUser where
  id : Uuid
  idpSubject : String
  name : String
  email : String
  passwordHash : Option String
  status : AccountStatus
  tokenVersion : ℕ
deriving DecidableEq, Repr

structure Platform where
  id : Uuid
  key : String
  name : String
  status : PlatformStatus
deriving DecidableEq, Repr

/-- `platform = none` is a global grant. -/
structure UserPlatformRole where
  id : Uuid
  staffUser : Uuid
  platform : Option Uuid
  role : Role
deriving DecidableEq, Repr

structure Label where
  id : Uuid
  platform : Uuid
  name : String
  color : String
deriving DecidableEq, Repr

structure IssueLabel where
  issue : Uuid
  label : Uuid
deriving DecidableEq, Repr

structure Attachment where
  id : Uuid
  issue : Uuid
  storageKey : String
  filename : String
  contentType : String
  sizeBytes : ℕ
  scanStatus : ScanStatus
  jiraSynced : Bool
  createdAt : Time
deriving DecidableEq, Repr

structure Reporter where
  id : Uuid
  platform : Uuid
  portalUserId : String
  name : String
  email : String
deriving DecidableEq, Repr

structure ReporterIssueView where
  reporter : Uuid
  issue : Uuid
  lastViewedAt : Time
deriving DecidableEq, Repr

structure CsatResponse where
  issue : Uuid
  reporter : Uuid
  score : ℕ
  comment : Option String
deriving DecidableEq, Repr

structure NotificationLog where
  issue : Uuid
  recipientRef : Uuid
  trigger : String
  channel : NotificationChannel
  status : NotificationStatus
deriving DecidableEq, Repr

structure WebhookEndpoint where
  id : Uuid
  platform : Option Uuid
  url : String
  secret : String
  events : List String
  enabled : Bool
deriving DecidableEq, Repr

structure Db where
  issues : Table Issue.id
  comments : Table Comment.id
  auditEvents : List AuditEvent
  issueLinks : List IssueLink
  issueWatchers : List IssueWatcher
  staffUsers : Table StaffUser.id
  roles : List UserPlatformRole
  labels : Table Label.id
  issueLabels : List IssueLabel
  attachments : Table Attachment.id
  reporters : Table Reporter.id
  views : List ReporterIssueView
  csatResponses : List CsatResponse
  platforms : Table Platform.id
  notificationLogs : List NotificationLog
  webhookEndpoints : Table WebhookEndpoint.id
deriving DecidableEq

def Db.empty : Db where
  issues := .empty
  comments := .empty
  auditEvents := []
  issueLinks := []
  issueWatchers := []
  staffUsers := .empty
  roles := []
  labels := .empty
  issueLabels := []
  attachments := .empty
  reporters := .empty
  views := []
  csatResponses := []
  platforms := .empty
  notificationLogs := []
  webhookEndpoints := .empty

structure AuditInput where
  issueId : Option Uuid
  actorType : ActorType
  actorId : Option String
  action : String
  field : Option String := none
  oldValue : Option String := none
  newValue : Option String := none
deriving DecidableEq, Repr

def AuditInput.toEvent (now : Time) (i : AuditInput) : AuditEvent where
  issue := i.issueId
  actorType := i.actorType
  actorId := i.actorId
  action := i.action
  field := i.field
  oldValue := i.oldValue
  newValue := i.newValue
  createdAt := now

def AuditService.record (now : Time) (i : AuditInput) : Statement Db := fun db =>
  some { db with auditEvents := db.auditEvents ++ [i.toEvent now] }

def Comment.insert (c : Comment) : Statement Db := fun db =>
  (db.comments.insert c).map fun comments => { db with comments }

def Issue.touched (now : Time) (r : Issue) : Issue :=
  { r with updatedAt := now, version := r.version + 1 }

@[simp] theorem Issue.touched_id (now : Time) (r : Issue) : (r.touched now).id = r.id := rfl

/-- `update(Issue).set({ updatedAt: now() })`; the version column rides along. -/
def Issue.touch (now : Time) (id : Uuid) : Statement Db := fun db =>
  some { db with issues := db.issues.update id (Issue.touched now) (Issue.touched_id now) }

theorem AuditService.keeps_record {β : Type} {π : Db → β} (h : ∀ db auditEvents, π { db with auditEvents } = π db)
    (now : Time) (i : AuditInput) : Transaction.Keeps π (record now i) := by
  intro s t hq
  cases hq
  exact h s _

theorem AuditService.of_audited {fails : ℕ → Bool} {q : Statement Db} {now : Time} {i : AuditInput} {s t : Db}
    (h : Transaction.body fails [q, record now i] s = some t) :
    ∃ m, q s = some m ∧ t = { m with auditEvents := m.auditEvents ++ [i.toEvent now] } := by
  obtain ⟨m, hm, hrecord⟩ := Transaction.body_two h
  cases hrecord
  exact ⟨m, hm, rfl⟩

theorem Comment.keeps_insert {β : Type} {π : Db → β} (h : ∀ db comments, π { db with comments } = π db) (c : Comment) :
    Transaction.Keeps π c.insert := by
  intro s t hq
  obtain ⟨comments, _, rfl⟩ := Option.map_eq_some_iff.mp hq
  exact h s comments

theorem Issue.keeps_touch {β : Type} {π : Db → β} (h : ∀ db issues, π { db with issues } = π db) (now : Time)
    (id : Uuid) : Transaction.Keeps π (touch now id) := by
  intro s t hq
  cases hq
  exact h s _

end Cimp
