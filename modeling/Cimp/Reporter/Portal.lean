import Cimp.Comments.Staff
import Cimp.Reporter.Intake
import Mathlib.Data.List.Sort

namespace Cimp

open Transaction

structure IssueSummary where
  id : Uuid
  referenceNo : String
  status : IssueStatus
  priority : Priority
  createdAt : Time
  updatedAt : Time
  hasUpdates : Bool
deriving DecidableEq, Repr

structure AttachmentView where
  id : Uuid
  filename : String
  contentType : String
  sizeBytes : ℕ
  downloadable : Bool
deriving DecidableEq, Repr

structure UpdateView where
  body : String
  originalBody : Option String
  translated : Bool
  createdAt : Time
  fromReporter : Bool
  author : String
deriving DecidableEq, Repr

structure CsatView where
  score : ℕ
  comment : Option String
deriving DecidableEq, Repr

structure IssueDetail where
  id : Uuid
  referenceNo : String
  status : IssueStatus
  priority : Priority
  description : String
  context : Option String
  csat : Option CsatView
  createdAt : Time
  updatedAt : Time
  attachments : List AttachmentView
  updates : List UpdateView
deriving DecidableEq, Repr

namespace ReporterService

/-- The reporter behind a context and an issue of theirs; any other issue is answered as a missing one. -/
def findOwn (db : Db) (ctx : HandoffContext) (issueId : Uuid) : Except HttpException (Reporter × Issue) :=
  match findReporter db ctx with
  | none => .error (.notFound "Issue not found")
  | some reporter =>
    match db.issues.findOne issueId with
    | none => .error (.notFound "Issue not found")
    | some issue =>
      if issue.reporter = reporter.id then .ok (reporter, issue) else .error (.notFound "Issue not found")

theorem findOwn_ok {db : Db} {ctx : HandoffContext} {issueId : Uuid} {reporter : Reporter} {issue : Issue}
    (h : findOwn db ctx issueId = .ok (reporter, issue)) :
    findReporter db ctx = some reporter ∧ db.issues.findOne issueId = some issue ∧ issue.reporter = reporter.id := by
  unfold findOwn at h
  split at h
  · cases h
  · rename_i hreporter
    split at h
    · cases h
    · rename_i hissue
      split at h
      · rename_i hown
        cases h
        exact ⟨hreporter, hissue, hown⟩
      · cases h

def lastViewed (db : Db) (reporterId issueId : Uuid) : Option Time :=
  (db.views.find? fun v => v.reporter = reporterId && v.issue = issueId).map ReporterIssueView.lastViewedAt

def summary (db : Db) (reporterId : Uuid) (i : Issue) : IssueSummary where
  id := i.id
  referenceNo := i.referenceNo
  status := i.status
  priority := i.priority
  createdAt := i.createdAt
  updatedAt := i.updatedAt
  hasUpdates := (lastViewed db reporterId i.id).all fun seen => seen < i.updatedAt

def listForReporter (db : Db) (ctx : HandoffContext) : List IssueSummary :=
  match findReporter db ctx with
  | none => []
  | some reporter =>
    ((db.issues.rows.filter fun i => i.reporter = reporter.id).insertionSort
      fun a b => b.createdAt ≤ a.createdAt).map (summary db reporter.id)

def translation (locale : Option String) (c : Comment) : Option String :=
  (locale.filter (· ≠ "")).bind fun l => c.translations.lookup l

def updateView (locale : Option String) (c : Comment) : UpdateView :=
  let translated := (translation locale c).any (· ≠ "")
  { body := (translation locale c).getD c.body
    originalBody := if translated then some c.body else none
    translated := translated
    createdAt := c.createdAt
    fromReporter := c.authorType = .reporter
    author := if c.authorType = .reporter then c.authorName.getD "You" else "Support" }

def visibleComments (db : Db) (issueId : Uuid) : List Comment :=
  (db.comments.rows.filter fun c => c.issue = issueId).filter fun c => c.visibility = .reporterVisible

def attachmentView (a : Attachment) : AttachmentView :=
  ⟨a.id, a.filename, a.contentType, a.sizeBytes, a.scanStatus ∈ servableScanStatuses⟩

def detail (db : Db) (locale : Option String) (i : Issue) : IssueDetail where
  id := i.id
  referenceNo := i.referenceNo
  status := i.status
  priority := i.priority
  description := i.description
  context := i.context
  csat := (db.csatResponses.find? fun r => r.issue = i.id).map fun r => ⟨r.score, r.comment⟩
  createdAt := i.createdAt
  updatedAt := i.updatedAt
  attachments := (db.attachments.rows.filter fun a => a.issue = i.id).map attachmentView
  updates := ((visibleComments db i.id).insertionSort fun a b => a.createdAt ≤ b.createdAt).map (updateView locale)

def getIssueForReporter (db : Db) (ctx : HandoffContext) (issueId : Uuid) : Except HttpException IssueDetail := do
  let (_, issue) ← findOwn db ctx issueId
  return detail db ctx.locale issue

def reply (now : Time) (ctx : HandoffContext) (reporter : Reporter) (issueId id : Uuid) (body : String) :
    Comment where
  id := id
  issue := issueId
  author := none
  authorType := .reporter
  authorName := reporter.name
  body := body
  visibility := .reporterVisible
  sourceLocale := ctx.locale
  translations := []
  createdAt := now
  editedAt := none

def replyStatements (now : Time) (ctx : HandoffContext) (reporter : Reporter) (issueId id : Uuid) (body : String) :
    List (Statement Db) :=
  [ (reply now ctx reporter issueId id body).insert,
    Issue.touch now issueId,
    AuditService.record now {
      issueId := issueId
      actorType := .reporter
      actorId := reporter.id
      action := "COMMENT_ADDED"
      field := "visibility"
      newValue := CommentVisibility.reporterVisible.value } ]

theorem keeps_replyStatements {β : Type} {π : Db → β} {now : Time} {ctx : HandoffContext} {reporter : Reporter}
    {issueId id : Uuid} {text : String} (hcomments : ∀ db comments, π { db with comments } = π db)
    (hissues : ∀ db issues, π { db with issues } = π db) (haudit : ∀ db auditEvents, π { db with auditEvents } = π db) :
    ∀ q ∈ replyStatements now ctx reporter issueId id text, Keeps π q := by
  intro q hq
  simp only [replyStatements, List.mem_cons, List.not_mem_nil, or_false] at hq
  rcases hq with rfl | rfl | rfl
  · exact Comment.keeps_insert hcomments _
  · exact Issue.keeps_touch hissues _ _
  · exact AuditService.keeps_record haudit _ _

def addComment (env : Env) (ctx : HandoffContext) (issueId : Uuid) (text : String) (id : Uuid) (db : Db) :
    Except HttpException Db :=
  if env.read then .error .internalServerError
  else do
    let (reporter, _) ← findOwn db ctx issueId
    match body env.statement (replyStatements env.now ctx reporter issueId id text) db with
    | none => .error .internalServerError
    | some db => return db

theorem addComment_ok {env : Env} {ctx : HandoffContext} {issueId id : Uuid} {text : String} {db db' : Db}
    (h : addComment env ctx issueId text id db = .ok db') :
    ∃ reporter, body env.statement (replyStatements env.now ctx reporter issueId id text) db = some db' := by
  unfold addComment at h
  split at h
  · cases h
  · obtain ⟨⟨reporter, issue⟩, _, h⟩ := bind_ok h
    dsimp only at h
    split at h
    · cases h
    · rename_i hbody
      cases h
      exact ⟨reporter, hbody⟩

def saveView (now : Time) (reporterId issueId : Uuid) : Statement Db := fun db =>
  if (lastViewed db reporterId issueId).isNone then
    some { db with views := db.views ++ [⟨reporterId, issueId, now⟩] }
  else some { db with views := db.views.map fun v =>
    if v.reporter = reporterId ∧ v.issue = issueId then { v with lastViewedAt := now } else v }

def markSeen (env : Env) (ctx : HandoffContext) (issueId : Uuid) (db : Db) : Except HttpException Db :=
  if env.read then .error .internalServerError
  else do
    let (reporter, issue) ← findOwn db ctx issueId
    match body env.statement [saveView env.now reporter.id issue.id] db with
    | none => .error .internalServerError
    | some db => return db

end ReporterService

inductive CsatScore
  | up | down
deriving DecidableEq, Repr

def CsatScore.value : CsatScore → ℕ
  | up => 1
  | down => 0

structure SubmitCsatDto where
  score : CsatScore
  comment : Option String
deriving DecidableEq, Repr

namespace CsatService

def commentOf (dto : SubmitCsatDto) : Option String := (dto.comment.map trim).filter (· ≠ "")

def responseOf (db : Db) (issueId : Uuid) : Option CsatResponse := db.csatResponses.find? fun r => r.issue = issueId

def saveResponse (r : CsatResponse) : Statement Db := fun db =>
  if (responseOf db r.issue).isNone then some { db with csatResponses := db.csatResponses ++ [r] }
  else some { db with csatResponses := db.csatResponses.map fun q => if q.issue = r.issue then r else q }

def flag (now : Time) (issueId id : Uuid) (dto : SubmitCsatDto) : Comment where
  id := id
  issue := issueId
  author := none
  authorType := .system
  authorName := none
  body := "Reporter rated the resolution negatively" ++ match commentOf dto with
    | none => "."
    | some comment => ": \"" ++ comment ++ "\""
  visibility := .internal
  sourceLocale := none
  translations := []
  createdAt := now
  editedAt := none

def flags (db : Db) (issueId : Uuid) (dto : SubmitCsatDto) : Bool :=
  dto.score.value = 0 && (responseOf db issueId).all fun existing => existing.score ≠ 0

/-- `submit`, whose two saves are not in one transaction: a flag that fails leaves the response. -/
def submit (env : Env) (ctx : HandoffContext) (issueId : Uuid) (dto : SubmitCsatDto) (id : Uuid) (db : Db) :
    Except HttpException CsatView × Db :=
  if env.read then (.error .internalServerError, db)
  else match ReporterService.findOwn db ctx issueId with
    | .error e => (.error e, db)
    | .ok (reporter, issue) =>
      if issue.status ≠ .resolved ∧ issue.status ≠ .closed then
        (.error (.conflict "You can rate an issue once it has been resolved."), db)
      else
        let response : CsatResponse := ⟨issueId, reporter.id, dto.score.value, commentOf dto⟩
        match body env.statement [saveResponse response] db with
        | none => (.error .internalServerError, db)
        | some saved =>
          if flags db issueId dto then
            match body (fun k => env.statement (k + 1)) [(flag env.now issueId id dto).insert] saved with
            | none => (.error .internalServerError, saved)
            | some flagged => (.ok ⟨response.score, response.comment⟩, flagged)
          else (.ok ⟨response.score, response.comment⟩, saved)

end CsatService

end Cimp
