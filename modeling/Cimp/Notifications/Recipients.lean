import Cimp.Comments.Staff
import Cimp.Issues.Watchers

namespace Cimp

structure MailMessage where
  subject : String
  text : String
deriving DecidableEq, Repr

inductive StaffQuery
  | focalPoints
  | watchers
  | staffUser (id : Uuid)
  | staffUsers (ids : List Uuid)
deriving DecidableEq

/-- A notification under way. `people` are those read so far and, once no query is left, the recipients
yet to be reached; `mailed` is what became of the mail to the first of them. -/
structure Notice where
  issueId : Uuid
  platformId : Uuid
  trigger : String
  channel : NotificationChannel
  actor : Option String
  message : MailMessage
  queries : List StaffQuery
  people : List StaffUser
  mailed : Option NotificationStatus
deriving DecidableEq

namespace NotificationsService

def focalPointsFor (db : Db) (platformId : Uuid) : List StaffUser :=
  (db.roles.filter fun g => g.role = .focalPoint && g.platform = some platformId).filterMap fun g =>
    (db.staffUsers.findOne g.staffUser).filter fun u => u.status = .active

def activeRecipientsFrom (seen : List Uuid) : List StaffUser → List StaffUser
  | [] => []
  | u :: users =>
    if u.email ≠ "" ∧ u.status = .active ∧ u.id ∉ seen then u :: activeRecipientsFrom (u.id :: seen) users
    else activeRecipientsFrom seen users

def activeRecipients (users : List StaffUser) : List StaffUser := activeRecipientsFrom [] users

def assignee (db : Db) (issue : Issue) : Option StaffUser := issue.assignee.bind db.staffUsers.findOne

def subject (db : Db) (issue : Issue) (text : String) : String :=
  "[" ++ (db.platforms.findOne issue.platform).elim "" Platform.key ++ "] " ++ text

def platformName (db : Db) (issue : Issue) : String := (db.platforms.findOne issue.platform).elim "" Platform.name

def openIt (appUrl : String) (issueId : Uuid) : String := "\n\nOpen it: " ++ appUrl ++ "/staff/issues/" ++ issueId

def newIssueMessage (appUrl : String) (db : Db) (issue : Issue) : MailMessage where
  subject := subject db issue ("New issue " ++ issue.referenceNo)
  text := "A new issue was reported on " ++ platformName db issue ++ ".\n\nReference: " ++ issue.referenceNo
    ++ "\nPriority: " ++ issue.priority.value ++ "\n\n" ++ String.ofList (utf16Prefix 500 issue.description.toList)
    ++ openIt appUrl issue.id

def assignedMessage (appUrl : String) (db : Db) (issue : Issue) : MailMessage where
  subject := subject db issue ("Assigned to you: " ++ issue.referenceNo)
  text := "Issue " ++ issue.referenceNo ++ " on " ++ platformName db issue ++ " was assigned to you.\n\nPriority: "
    ++ issue.priority.value ++ "\nStatus: " ++ issue.status.value ++ openIt appUrl issue.id

def statusMessage (appUrl : String) (db : Db) (issue : Issue) (old target : IssueStatus) : MailMessage where
  subject := subject db issue (issue.referenceNo ++ " → " ++ target.value)
  text := "Issue " ++ issue.referenceNo ++ " on " ++ platformName db issue ++ " moved from " ++ old.value ++ " to "
    ++ target.value ++ "." ++ openIt appUrl issue.id

def slaBreachMessage (appUrl : String) (db : Db) (issue : Issue) : MailMessage where
  subject := subject db issue ("SLA BREACHED: " ++ issue.referenceNo)
  text := "Issue " ++ issue.referenceNo ++ " on " ++ platformName db issue ++ " has exceeded its "
    ++ issue.priority.value ++ " SLA window and needs attention.\n\nStatus: " ++ issue.status.value ++ "\nAssignee: "
    ++ (assignee db issue).elim "Unassigned" StaffUser.name ++ openIt appUrl issue.id

def reporterReplyMessage (appUrl : String) (db : Db) (issue : Issue) : MailMessage where
  subject := subject db issue ("Reporter replied on " ++ issue.referenceNo)
  text := "The reporter added a reply on " ++ issue.referenceNo ++ " (" ++ platformName db issue ++ ")."
    ++ openIt appUrl issue.id

def notice (issue : Issue) (trigger : String) (message : MailMessage) (queries : List StaffQuery) : Notice where
  issueId := issue.id
  platformId := issue.platform
  trigger := trigger
  channel := .email
  actor := none
  message := message
  queries := queries
  people := []
  mailed := none

variable (appUrl : String) (db : Db)

def notifyFocalPointsOfNewIssue (issueId platformId : Uuid) : Option Notice :=
  (db.issues.findOne issueId).map fun issue =>
    { notice issue "issue.created" (newIssueMessage appUrl db issue) [.focalPoints] with platformId }

def notifyAssignee (issueId : Uuid) (assigneeId : Option Uuid) : Option Notice :=
  match assigneeId with
  | none => none
  | some assigneeId =>
    if assigneeId = "" then none
    else (db.issues.findOne issueId).map fun issue =>
      notice issue "issue.assigned" (assignedMessage appUrl db issue) [.staffUser assigneeId]

def notifyStatusChange (issueId : Uuid) (old target : IssueStatus) (actorStaffId : String) : Option Notice :=
  (db.issues.findOne issueId).map fun issue =>
    { notice issue "issue.status_changed" (statusMessage appUrl db issue old target) [.focalPoints, .watchers] with
      actor := some actorStaffId
      people := (assignee db issue).toList }

def notifySlaBreach (issueId : Uuid) : Option Notice :=
  (db.issues.findOne issueId).map fun issue =>
    { notice issue "issue.sla_breached" (slaBreachMessage appUrl db issue) [.focalPoints, .watchers] with
      people := (assignee db issue).toList }

def notifyReporterReply (issueId : Uuid) : Option Notice :=
  (db.issues.findOne issueId).map fun issue =>
    { notice issue "comment.reporter_reply" (reporterReplyMessage appUrl db issue) [.focalPoints] with
      people := (assignee db issue).toList }

/-- In the app only, and on the word of the event: the issue is not read. -/
def notifyMentions (issueId platformId : Uuid) (staffIds : List Uuid) (actorStaffId : String) : Option Notice :=
  let targets := staffIds.eraseDups.filter fun id => id ≠ "" ∧ id ≠ actorStaffId
  if targets = [] then none
  else some ⟨issueId, platformId, "comment.mention", .inApp, none, ⟨"", ""⟩, [.staffUsers targets], [], none⟩

def run (n : Notice) : StaffQuery → List StaffUser
  | .focalPoints => focalPointsFor db n.platformId
  | .watchers => WatchersService.watcherRows db n.issueId
  | .staffUser id => (db.staffUsers.findOne id).toList
  | .staffUsers ids => db.staffUsers.rows.filter fun u => u.id ∈ ids

end NotificationsService

namespace NotificationsListener

open NotificationsService

/-- The first query of a listener, if it has anything to do for the event. -/
def on (appUrl : String) (db : Db) : IssueEvent → Option Notice
  | .created issueId platformId => notifyFocalPointsOfNewIssue appUrl db issueId platformId
  | .assigned issueId _ assigneeId _ => notifyAssignee appUrl db issueId assigneeId
  | .statusChanged issueId _ old target actorStaffId => notifyStatusChange appUrl db issueId old target actorStaffId
  | .slaBreached issueId _ => notifySlaBreach appUrl db issueId
  | .commentAdded issueId platformId _ reporterVisible actorStaffId mentionStaffIds =>
    if reporterVisible ∧ actorStaffId = "" then notifyReporterReply appUrl db issueId
    else notifyMentions issueId platformId mentionStaffIds actorStaffId
  | .priorityChanged _ _ _ _ _ | .merged _ _ _ _ | .csatReceived _ _ _ => none

end NotificationsListener

namespace Notice

def recipients (n : Notice) (people : List StaffUser) : List StaffUser :=
  match n.channel with
  | .email => (NotificationsService.activeRecipients people).filter fun u => some u.id ≠ n.actor
  | .inApp => people.filter fun u => u.status = .active

/-- The notice after its next query; the last one settles the recipients. -/
def found (n : Notice) (rest : List StaffQuery) (users : List StaffUser) : Notice :=
  let people := n.people ++ users
  { n with queries := rest, people := if rest = [] then n.recipients people else people }

def dropped (n : Notice) : Notice := { n with queries := [], people := [], mailed := none }

def Reaches (n : Notice) (u : StaffUser) : Prop :=
  u.status = .active ∧ (n.channel = .email → u.email ≠ "" ∧ some u.id ≠ n.actor)

instance decidableReaches (n : Notice) (u : StaffUser) : Decidable (n.Reaches u) := instDecidableAnd

def mailing (n : Notice) : Option StaffUser :=
  if n.queries = [] ∧ n.channel = .email ∧ n.mailed = none then n.people.head? else none

def logRow (n : Notice) (status : NotificationStatus) (u : StaffUser) : NotificationLog :=
  ⟨n.issueId, u.id, n.trigger, n.channel, status⟩

/-- The rows that are saved next: one for each mail, or all of them at once. -/
def logging (n : Notice) : List NotificationLog :=
  if n.queries ≠ [] then []
  else match n.channel, n.mailed with
    | .email, none => []
    | .email, some status => (n.people.take 1).map (n.logRow status)
    | .inApp, _ => n.people.map (n.logRow .sent)

def logged (n : Notice) : Notice :=
  match n.channel with
  | .email => { n with people := n.people.drop 1, mailed := none }
  | .inApp => { n with people := [] }

end Notice

end Cimp
