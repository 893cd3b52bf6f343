import Cimp.Issues.Changes
import Cimp.Lib.Execution

namespace Cimp

inductive BulkOp
  | status | priority | assignee
deriving DecidableEq, Repr

structure BulkUpdateDto where
  ids : List Uuid
  op : BulkOp
  value : Option String
deriving DecidableEq, Repr

structure BulkRun where
  db : Db
  updated : ℕ
  skipped : List (Uuid × String)
  events : List IssueEvent

namespace IssuesService

def notVisibleReason : String := "Not found or out of scope"

def skipReason (e : HttpException) : String := if e.status = 404 then notVisibleReason else e.message

inductive BulkChange
  | status (target : IssueStatus)
  | priority (target : Priority)
  | assignee (target : Option Uuid)
deriving DecidableEq, Repr

def bulkChange (cfg : Config) (dto : BulkUpdateDto) : Except HttpException BulkChange :=
  match dto.op with
  | .status =>
    match dto.value.bind IssueStatus.ofValue with
    | none => .error (.badRequest "Invalid status value.")
    | some target => .ok (.status target)
  | .priority =>
    match dto.value.bind Priority.ofValue with
    | none => .error (.badRequest "Invalid priority value.")
    | some target => .ok (.priority target)
  | .assignee =>
    match dto.value with
    | none => .ok (.assignee none)
    | some value =>
      if value = "" then .ok (.assignee none)
      else if cfg.isUuid value then .ok (.assignee (some value))
      else .error (.badRequest "Invalid assignee id.")

def applyBulkChange (cfg : Config) (now : Time) (db : Db) (staff : AuthenticatedStaff) (issue : IssueEntity) :
    BulkChange → Except HttpException Write
  | .status target => applyStatus cfg now staff issue ⟨target, issue.version⟩
  | .priority target => applyPriority staff issue ⟨target, issue.version⟩
  | .assignee target => applyAssignment db staff issue ⟨target, issue.version⟩

def bulkWrite (cfg : Config) (env : Env) (db : Db) (staff : AuthenticatedStaff) (change : BulkChange)
    (id : Uuid) : Except String Write :=
  if env.read then .error env.message
  else match loadForWrite db id with
    | .error e => .error (skipReason e)
    | .ok issue =>
      if ScopeService.canAccessPlatform staff issue.platform staffWriteRoles then
        match applyBulkChange cfg env.now db staff issue change with
        | .error e => .error (skipReason e)
        | .ok w => .ok w
      else .error notVisibleReason

/-- One turn of the loop over `dto.ids`; `item.2` is its index. -/
def bulkStep (cfg : Config) (env : ℕ → Env) (staff : AuthenticatedStaff) (change : BulkChange)
    (run : BulkRun) (item : Uuid × ℕ) : BulkRun :=
  match bulkWrite cfg (env item.2) run.db staff change item.1 with
  | .error reason => { run with skipped := run.skipped ++ [(item.1, reason)] }
  | .ok w =>
    match w.body (env item.2) run.db with
    | none => { run with skipped := run.skipped ++ [(item.1, (env item.2).message)] }
    | some db => { run with db := db, updated := run.updated + 1, events := run.events ++ w.events }

def bulkUpdate (cfg : Config) (env : ℕ → Env) (db : Db) (staff : AuthenticatedStaff)
    (dto : BulkUpdateDto) : Except HttpException BulkRun :=
  if ScopeService.scopedPlatformIds staff = .ids [] then
    .ok ⟨db, 0, dto.ids.map fun id => (id, notVisibleReason), []⟩
  else do
    let change ← bulkChange cfg dto
    return Execution.exec (bulkStep cfg env staff change) ⟨db, 0, [], []⟩ dto.ids.zipIdx

variable {cfg : Config} {env : Env} {db : Db} {staff : AuthenticatedStaff} {change : BulkChange}
  {id : Uuid} {w : Write}

theorem bulkWrite_ok (h : bulkWrite cfg env db staff change id = .ok w) :
    ∃ row, db.issues.findOne id = some row ∧
      ((∃ target, canTransition row.status target = true ∧
          w = statusWrite env.now staff (row.toEntity { assignee := true }) target) ∨
        (∃ target, row.priority ≠ target ∧
          w = priorityWrite staff (row.toEntity { assignee := true }) target) ∨
        ∃ target, w = assignmentWrite staff (row.toEntity { assignee := true }) target) := by
  unfold bulkWrite at h
  split at h
  · cases h
  · split at h
    · cases h
    · rename_i issue hload
      obtain ⟨row, hrow, rfl⟩ := loadForWrite_ok hload
      split at h
      · split at h
        · cases h
        · rename_i w' happly
          cases h
          refine ⟨row, hrow, ?_⟩
          cases change with
          | status target =>
            obtain ⟨_, htransition, rfl⟩ := applyStatus_ok happly
            exact .inl ⟨target, htransition, rfl⟩
          | priority target =>
            obtain ⟨_, hdiffers, rfl⟩ := applyPriority_ok happly
            exact .inr (.inl ⟨target, hdiffers, rfl⟩)
          | assignee target =>
            obtain ⟨_, rfl⟩ := applyAssignment_ok happly
            exact .inr (.inr ⟨target, rfl⟩)
      · cases h

theorem bulkStep_cases (cfg : Config) (env : ℕ → Env) (staff : AuthenticatedStaff) (change : BulkChange)
    (run : BulkRun) (item : Uuid × ℕ) :
    (bulkStep cfg env staff change run item).db = run.db ∨
      ∃ w, bulkWrite cfg (env item.2) run.db staff change item.1 = .ok w ∧
        w.body (env item.2) run.db = some (bulkStep cfg env staff change run item).db := by
  unfold bulkStep
  split
  · exact .inl rfl
  · rename_i w hw
    split
    · exact .inl rfl
    · rename_i db hdb
      exact .inr ⟨w, hw, hdb⟩

end IssuesService

end Cimp
