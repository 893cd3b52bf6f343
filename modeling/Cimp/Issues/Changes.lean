import Cimp.Authz.Scope
import Cimp.Issues.Status
import Cimp.Issues.Write

namespace Cimp

/-- `slaWindow` is `slaWindowHours` under a platform's policy, in milliseconds; `isUuid` is the
validator library's check; `jiraEnabled` holds of a platform that is mapped to a Jira project. -/
structure Config where
  focalPointCanTransition : Bool
  slaWindow : Uuid → Priority → Time
  isUuid : String → Bool
  jiraEnabled : Uuid → Bool

structure UpdateStatusDto where
  status : IssueStatus
  version : ℕ
deriving DecidableEq, Repr

structure UpdatePriorityDto where
  priority : Priority
  version : ℕ
deriving DecidableEq, Repr

structure UpdateAssignmentDto where
  assigneeId : Option Uuid
  version : ℕ
deriving DecidableEq, Repr

def StaffUser.toAuthenticated (user : StaffUser) (roles : List StaffRoleGrant) : AuthenticatedStaff where
  id := user.id
  idpSubject := user.idpSubject
  name := user.name
  email := user.email
  roles := roles

def loadRoles (db : Db) (staffUserId : Uuid) : List StaffRoleGrant :=
  (db.roles.filter fun g => g.staffUser = staffUserId).map fun g => ⟨g.role, g.platform⟩

namespace IssuesService

def loadForWrite (db : Db) (issueId : Uuid) : Except HttpException IssueEntity :=
  match db.issues.findOne issueId with
  | none => .error (.notFound "Issue not found")
  | some row => .ok (row.toEntity { assignee := true })

def assertVersion (issue : IssueEntity) (version : ℕ) : Except HttpException Unit :=
  require (version = issue.version)
    (.conflict "This issue was modified by someone else. Reload and try again.")

def assertCanTransition (cfg : Config) (staff : AuthenticatedStaff) (platformId : Uuid) :
    Except HttpException Unit :=
  let roles := if cfg.focalPointCanTransition then [.developer, .admin, .focalPoint] else [.developer, .admin]
  require (ScopeService.canAccessPlatform staff platformId roles)
    (.forbidden "You may not change the status of this issue.")

def statusWrite (now : Time) (staff : AuthenticatedStaff) (issue : IssueEntity) (target : IssueStatus) :
    Write where
  issue := issue.setStatus now target
  others := fun _ => []
  audit := [{
    issueId := issue.id
    actorType := .staff
    actorId := staff.id
    action := "STATUS_CHANGED"
    field := "status"
    oldValue := issue.status.value
    newValue := target.value }]
  events := [.statusChanged issue.id issue.platform issue.status target staff.id]
  frame := Write.frame_nil

def applyStatus (cfg : Config) (now : Time) (staff : AuthenticatedStaff) (issue : IssueEntity)
    (dto : UpdateStatusDto) : Except HttpException Write := do
  assertVersion issue dto.version
  assertCanTransition cfg staff issue.platform
  require (issue.status ≠ dto.status) (.unprocessableEntity "Issue is already in that status.")
  require (canTransition issue.status dto.status)
    (.unprocessableEntity ("Cannot transition from " ++ issue.status.value ++ " to " ++ dto.status.value ++ "."))
  return statusWrite now staff issue dto.status

def priorityWrite (staff : AuthenticatedStaff) (issue : IssueEntity) (target : Priority) : Write where
  issue := { issue with priority := target }
  others := fun _ => []
  audit := [{
    issueId := issue.id
    actorType := .staff
    actorId := staff.id
    action := "PRIORITY_CHANGED"
    field := "priority"
    oldValue := issue.priority.value
    newValue := target.value }]
  events := [.priorityChanged issue.id issue.platform issue.priority target staff.id]
  frame := Write.frame_nil

def applyPriority (staff : AuthenticatedStaff) (issue : IssueEntity) (dto : UpdatePriorityDto) :
    Except HttpException Write := do
  assertVersion issue dto.version
  require (issue.priority ≠ dto.priority) (.unprocessableEntity "Issue is already at that priority.")
  return priorityWrite staff issue dto.priority

def assignable (db : Db) (platformId : Uuid) : Option Uuid → Except HttpException (Option Uuid)
  | none => .ok none
  | some assigneeId =>
    match db.staffUsers.findOne assigneeId with
    | none => .error (.badRequest "Assignee not found or inactive.")
    | some user => do
      require (user.status = .active) (.badRequest "Assignee not found or inactive.")
      require (ScopeService.canAccessPlatform (user.toAuthenticated (loadRoles db user.id)) platformId
        [.developer]) (.badRequest "Assignee is not a developer on this platform.")
      return some user.id

def assignmentWrite (staff : AuthenticatedStaff) (issue : IssueEntity) (target : Option Uuid) : Write where
  issue := { issue with assignee := some target }
  others := fun _ => []
  audit := [{
    issueId := issue.id
    actorType := .staff
    actorId := staff.id
    action := "ASSIGNED"
    field := "assignee"
    oldValue := issue.assignee.getD none
    newValue := target }]
  events := [.assigned issue.id issue.platform target staff.id]
  frame := Write.frame_nil

def applyAssignment (db : Db) (staff : AuthenticatedStaff) (issue : IssueEntity)
    (dto : UpdateAssignmentDto) : Except HttpException Write := do
  assertVersion issue dto.version
  let newAssignee ← assignable db issue.platform dto.assigneeId
  return assignmentWrite staff issue newAssignee

variable {cfg : Config} {now : Time} {db : Db} {staff : AuthenticatedStaff} {issue : IssueEntity}
  {w : Write}

theorem loadForWrite_ok {issueId : Uuid} (h : loadForWrite db issueId = .ok issue) :
    ∃ row, db.issues.findOne issueId = some row ∧ issue = row.toEntity { assignee := true } := by
  unfold loadForWrite at h
  split at h
  · cases h
  · rename_i row hrow
    cases h
    exact ⟨row, hrow, rfl⟩

theorem assertVersion_ok {version : ℕ} {u : Unit} (h : assertVersion issue version = .ok u) :
    issue.version = version := (require_decide h).symm

theorem applyStatus_ok {dto : UpdateStatusDto} (h : applyStatus cfg now staff issue dto = .ok w) :
    issue.version = dto.version ∧ canTransition issue.status dto.status = true ∧
      w = statusWrite now staff issue dto.status := by
  obtain ⟨_, hversion, h⟩ := bind_ok h
  obtain ⟨_, _, h⟩ := bind_ok h
  obtain ⟨_, _, h⟩ := bind_ok h
  obtain ⟨_, htransition, h⟩ := bind_ok h
  cases h
  exact ⟨assertVersion_ok hversion, require_ok htransition, rfl⟩

theorem applyPriority_ok {dto : UpdatePriorityDto} (h : applyPriority staff issue dto = .ok w) :
    issue.version = dto.version ∧ issue.priority ≠ dto.priority ∧
      w = priorityWrite staff issue dto.priority := by
  obtain ⟨_, hversion, h⟩ := bind_ok h
  obtain ⟨_, hpriority, h⟩ := bind_ok h
  cases h
  exact ⟨assertVersion_ok hversion, require_decide hpriority, rfl⟩

theorem assignable_ok {platformId : Uuid} {requested target : Option Uuid}
    (h : assignable db platformId requested = .ok target) : target = requested := by
  cases requested with
  | none => cases h; rfl
  | some assigneeId =>
    simp only [assignable] at h
    split at h
    · cases h
    · rename_i user huser
      obtain ⟨_, _, h⟩ := bind_ok h
      obtain ⟨_, _, h⟩ := bind_ok h
      cases h
      rw [Table.findOne_key huser]

theorem applyAssignment_ok {dto : UpdateAssignmentDto} (h : applyAssignment db staff issue dto = .ok w) :
    issue.version = dto.version ∧ w = assignmentWrite staff issue dto.assigneeId := by
  obtain ⟨_, hversion, h⟩ := bind_ok h
  obtain ⟨target, htarget, h⟩ := bind_ok h
  cases h
  exact ⟨assertVersion_ok hversion, by rw [assignable_ok htarget]⟩

end IssuesService

namespace Sample

def config : Config := ⟨false, fun _ _ => 10, fun _ => true, fun _ => true⟩

def admin : AuthenticatedStaff := ⟨"admin", "local:admin@cimp", "Admin", "admin@cimp", [⟨.admin, none⟩]⟩

end Sample

end Cimp
