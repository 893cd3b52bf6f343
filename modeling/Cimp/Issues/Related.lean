import Cimp.Authz.Scope
import Cimp.Issues.Write

namespace Cimp

structure CreateIssueLinkDto where
  targetIssueId : UuidText
  type : IssueLinkType
deriving DecidableEq, Repr

inductive LinkDirection
  | outward | inward
deriving DecidableEq, Repr

structure IssueLinkView where
  id : Uuid
  type : IssueLinkType
  direction : LinkDirection
  issue : Uuid
  referenceNo : String
  status : IssueStatus
  createdAt : Time
deriving DecidableEq, Repr

namespace IssueLinksService

def toView (db : Db) (issueId : String) (l : IssueLink) : Option IssueLinkView :=
  let outward := l.sourceIssue = issueId
  let other := if outward then l.targetIssue else l.sourceIssue
  (db.issues.findOne other).map fun i =>
    ⟨l.id, l.type, if outward then .outward else .inward, i.id, i.referenceNo, i.status, l.createdAt⟩

def create (env : Env) (staff : AuthenticatedStaff) (issueId : UuidText) (dto : CreateIssueLinkDto) (id : Uuid)
    (db : Db) : Except HttpException IssueLinkView × Db :=
  if issueId.text = dto.targetIssueId.text then (.error (.badRequest "An issue cannot be linked to itself."), db)
  else if env.read then (.error .internalServerError, db)
  else match db.issues.findOne issueId.uuid, db.issues.findOne dto.targetIssueId.uuid with
    | some source, some target =>
      if source.platform ≠ target.platform then
        (.error (.badRequest "Issues can only be linked within the same platform."), db)
      else if env.statement 0 then (.error .internalServerError, db)
      else if db.issueLinks.any (fun m => m.sourceIssue = source.id && m.targetIssue = target.id
          && m.type = dto.type) then (.error (.conflict "That link already exists."), db)
      else
        let link : IssueLink := ⟨id, source.id, target.id, dto.type, staff.id, env.now⟩
        let saved := { db with issueLinks := db.issueLinks ++ [link] }
        ((toView saved issueId.text link).elim (.error .internalServerError) .ok, saved)
    | _, _ => (.error (.notFound "Issue not found."), db)

end IssueLinksService

structure LabelView where
  id : Uuid
  name : String
  color : String
deriving DecidableEq, Repr

namespace LabelsService

def toView (l : Label) : LabelView := ⟨l.id, l.name, l.color⟩

def listForIssue (db : Db) (issueId : Uuid) : List LabelView :=
  (db.issueLabels.filter fun l => l.issue = issueId).filterMap fun l => (db.labels.findOne l.label).map toView

def addToIssue (env : Env) (issueId labelId : Uuid) (db : Db) : Except HttpException (List LabelView) × Db :=
  if env.read then (.error .internalServerError, db)
  else match db.issues.findOne issueId with
    | none => (.error (.notFound "Issue not found."), db)
    | some issue =>
      match db.labels.findOne labelId with
      | none => (.error (.notFound "Label not found."), db)
      | some label =>
        if label.platform ≠ issue.platform then
          (.error (.badRequest "Label belongs to a different platform."), db)
        else if env.statement 0 then (.error .internalServerError, db)
        else if ⟨issueId, label.id⟩ ∈ db.issueLabels then (.ok (listForIssue db issueId), db)
        else
          let saved := { db with issueLabels := db.issueLabels ++ [⟨issueId, label.id⟩] }
          (.ok (listForIssue saved issueId), saved)

end LabelsService

structure ServableFile where
  buffer : List UInt8
  filename : String
  contentType : String
deriving DecidableEq, Repr

namespace AttachmentsService

/-- `getForStaff`; `storage` is the blob store behind `StorageService.read`. -/
def getForStaff (storage : String → Except HttpException (List UInt8)) (db : Db) (staff : AuthenticatedStaff)
    (attachmentId : Uuid) : Except HttpException ServableFile :=
  match (db.attachments.findOne attachmentId).bind fun a => (db.issues.findOne a.issue).map fun i => (a, i) with
  | none => .error (.notFound "Attachment not found")
  | some (attachment, issue) => do
    require (ScopeService.canAccessPlatform staff issue.platform staffReadRoles)
      (.notFound "Attachment not found")
    require (attachment.scanStatus ∈ servableScanStatuses)
      (.forbidden ("Attachment is not available (scan status: " ++ attachment.scanStatus.value ++ ")."))
    let buffer ← storage attachment.storageKey
    return ⟨buffer, attachment.filename, attachment.contentType⟩

end AttachmentsService

end Cimp
