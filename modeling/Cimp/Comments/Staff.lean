import Cimp.Authz.Scope
import Cimp.Issues.Write

namespace Cimp

open Transaction

structure CreateCommentDto where
  body : String
  visibility : CommentVisibility
  mentionStaffIds : List Uuid
deriving DecidableEq, Repr

def utf16Prefix : ℕ → List Char → List Char
  | _, [] => []
  | n, c :: cs =>
    let width := if c.toNat < 65536 then 1 else 2
    if n < width then [] else c :: utf16Prefix (n - width) cs

namespace CommentsService

def platformMemberIds (db : Db) (staffIds : List Uuid) (platformId : Uuid) : List Uuid :=
  staffIds.filter fun id => db.roles.any fun g =>
    g.staffUser = id && (g.platform = some platformId || g.platform = none) && g.role ∈ staffWriteRoles

def staffComment (now : Time) (staff : AuthenticatedStaff) (issueId id : Uuid) (dto : CreateCommentDto) :
    Comment where
  id := id
  issue := issueId
  author := staff.id
  authorType := .staff
  authorName := none
  body := dto.body
  visibility := dto.visibility
  sourceLocale := none
  translations := []
  createdAt := now
  editedAt := none

def addStatements (now : Time) (staff : AuthenticatedStaff) (issueId id : Uuid) (dto : CreateCommentDto) :
    List (Statement Db) :=
  (staffComment now staff issueId id dto).insert ::
    ((if dto.visibility = .reporterVisible then [Issue.touch now issueId] else []) ++
      [AuditService.record now {
        issueId := issueId
        actorType := .staff
        actorId := staff.id
        action := "COMMENT_ADDED"
        field := "visibility"
        newValue := dto.visibility.value }])

theorem keeps_addStatements {β : Type} {π : Db → β} {now : Time} {staff : AuthenticatedStaff} {issueId id : Uuid}
    {dto : CreateCommentDto} (hcomments : ∀ db comments, π { db with comments } = π db)
    (hissues : ∀ db issues, π { db with issues } = π db) (haudit : ∀ db auditEvents, π { db with auditEvents } = π db) :
    ∀ q ∈ addStatements now staff issueId id dto, Keeps π q := by
  intro q hq
  simp only [addStatements, List.mem_cons, List.mem_append, List.not_mem_nil, or_false] at hq
  rcases hq with rfl | htouch | rfl
  · exact Comment.keeps_insert hcomments _
  · split at htouch
    · rw [List.mem_singleton.mp htouch]
      exact Issue.keeps_touch hissues _ _
    · cases htouch
  · exact AuditService.keeps_record haudit _ _

def commentAdded (db : Db) (staff : AuthenticatedStaff) (issue : Issue) (id : Uuid) (dto : CreateCommentDto) :
    IssueEvent :=
  .commentAdded issue.id issue.platform id (dto.visibility = .reporterVisible) staff.id
    (platformMemberIds db (dto.mentionStaffIds.eraseDups.filter fun m => m ≠ staff.id) issue.platform)

def addComment (env : Env) (staff : AuthenticatedStaff) (issueId : Uuid) (dto : CreateCommentDto) (id : Uuid)
    (db : Db) : Except HttpException (Db × IssueEvent) :=
  if env.read then .error .internalServerError
  else match db.issues.findOne issueId with
    | none => .error (.notFound "Issue not found")
    | some issue =>
      match body env.statement (addStatements env.now staff issueId id dto) db with
      | none => .error .internalServerError
      | some db => .ok (db, commentAdded db staff issue id dto)

def edited (now : Time) (body : String) (c : Comment) : Comment :=
  { c with body := body, editedAt := some now, translations := [], sourceLocale := none }

@[simp] theorem edited_id (now : Time) (body : String) (c : Comment) : (edited now body c).id = c.id := rfl

def saveEdited (now : Time) (id : Uuid) (body : String) : Statement Db := fun db =>
  some { db with comments := db.comments.update id (edited now body) (edited_id now body) }

def editStatements (now : Time) (staff : AuthenticatedStaff) (comment : Comment) (body : String) :
    List (Statement Db) :=
  [ saveEdited now comment.id body,
    AuditService.record now {
      issueId := comment.issue
      actorType := .staff
      actorId := staff.id
      action := "COMMENT_EDITED"
      field := "body"
      oldValue := String.ofList (utf16Prefix 255 comment.body.toList)
      newValue := String.ofList (utf16Prefix 255 body.toList) } ]

/-- `editComment` up to its transaction: the author, who still has write access to the platform. -/
def editable (db : Db) (staff : AuthenticatedStaff) (commentId : Uuid) : Except HttpException Comment :=
  match db.comments.findOne commentId with
  | none => .error (.notFound "Comment not found")
  | some comment => do
    require (comment.author = some staff.id) (.forbidden "You can only edit your own comments.")
    require ((db.issues.findOne comment.issue).all fun issue =>
        ScopeService.canAccessPlatform staff issue.platform staffWriteRoles)
      (.forbidden "You no longer have write access to this platform.")
    return comment

def editComment (env : Env) (staff : AuthenticatedStaff) (commentId : Uuid) (text : String) (db : Db) :
    Except HttpException Db :=
  if env.read then .error .internalServerError
  else do
    let comment ← editable db staff commentId
    match body env.statement (editStatements env.now staff comment text) db with
    | none => .error .internalServerError
    | some db => return db

theorem addComment_ok {env : Env} {staff : AuthenticatedStaff} {issueId id : Uuid} {dto : CreateCommentDto}
    {db db' : Db} {e : IssueEvent} (h : addComment env staff issueId dto id db = .ok (db', e)) :
    ∃ issue, db.issues.findOne issueId = some issue ∧
      body env.statement (addStatements env.now staff issueId id dto) db = some db' ∧
      e = commentAdded db' staff issue id dto := by
  unfold addComment at h
  split at h
  · cases h
  · split at h
    · cases h
    · rename_i issue hissue
      split at h
      · cases h
      · rename_i hbody
        cases h
        exact ⟨issue, hissue, hbody, rfl⟩

theorem editable_ok {db : Db} {staff : AuthenticatedStaff} {commentId : Uuid} {comment : Comment}
    (h : editable db staff commentId = .ok comment) :
    db.comments.findOne commentId = some comment ∧ comment.author = some staff.id := by
  unfold editable at h
  split at h
  · cases h
  · rename_i found hfound
    obtain ⟨_, hauthor, h⟩ := bind_ok h
    obtain ⟨_, _, h⟩ := bind_ok h
    cases h
    exact ⟨hfound, require_decide hauthor⟩

theorem editable_outside {db : Db} {staff : AuthenticatedStaff} {commentId : Uuid} {comment : Comment}
    {issue : Issue} (hcomment : db.comments.findOne commentId = some comment)
    (hissue : db.issues.findOne comment.issue = some issue) (hout : staff.Outside issue.platform) :
    ∃ message, editable db staff commentId = .error (.forbidden message) := by
  unfold editable
  rw [hcomment]
  simp only [require, hissue, Option.all_some, hout.canAccessPlatform]
  by_cases hauthor : comment.author = some staff.id
  · exact ⟨"You no longer have write access to this platform.", by simp [hauthor, bind, Except.bind]⟩
  · exact ⟨"You can only edit your own comments.", by simp [hauthor, bind, Except.bind]⟩

end CommentsService

end Cimp
