import Cimp.Issues.Status
import Cimp.Issues.Write

namespace Cimp

structure JiraPayload where
  key : Option String
  categoryKey : Option String
deriving DecidableEq, Repr

namespace JiraInboundService

/-- What `CATEGORY_TO_STATUS[categoryKey]` can be: an entry of the table, or one of the properties
every JavaScript object inherits, which is truthy but no status. -/
inductive Mapped
  | status (s : IssueStatus)
  | inherited
deriving DecidableEq, Repr

def inheritedProperties : List String :=
  ["constructor", "toString", "toLocaleString", "valueOf", "hasOwnProperty", "isPrototypeOf",
    "propertyIsEnumerable", "__proto__", "__defineGetter__", "__defineSetter__", "__lookupGetter__",
    "__lookupSetter__"]

def categoryToStatus (categoryKey : String) : Option Mapped :=
  if categoryKey = "new" then some (.status .new)
  else if categoryKey = "indeterminate" then some (.status .inProgress)
  else if categoryKey = "done" then some (.status .resolved)
  else if categoryKey ∈ inheritedProperties then some .inherited
  else none

def terminalStatuses : List IssueStatus := [.resolved, .closed]

def resolveTarget (old : IssueStatus) (mapped : Mapped) : Mapped :=
  if mapped ≠ .status .resolved ∧ old ∈ terminalStatuses then .status .reopened else mapped

def findByJiraKey (db : Db) (key : String) : Option Issue :=
  db.issues.rows.find? fun r => r.jiraIssueKey = some key

def webhookWrite (now : Time) (issue : IssueEntity) (target : IssueStatus) : Write where
  issue := issue.setStatus now target
  others := fun _ => []
  audit := [{
    issueId := issue.id
    actorType := .system
    actorId := none
    action := "STATUS_CHANGED"
    field := "status"
    oldValue := issue.status.value
    newValue := target.value }]
  events := []
  frame := Write.frame_nil

/-- `applyWebhook` up to the save; `none` is `applied: false`. A value that is no status fails the
save on the enum column. -/
def applyWebhook (now : Time) (db : Db) (payload : JiraPayload) : Except HttpException (Option Write) :=
  match payload.key, payload.categoryKey with
  | some key, some categoryKey =>
    if key = "" ∨ categoryKey = "" then .ok none
    else match categoryToStatus categoryKey with
      | none => .ok none
      | some mapped =>
        match findByJiraKey db key with
        | none => .ok none
        | some row =>
          match resolveTarget row.status mapped with
          | .inherited => .error (.badRequest "Malformed request parameter.")
          | .status target =>
            if row.status = target then .ok none
            else .ok (some (webhookWrite now (row.toEntity {}) target))
  | _, _ => .ok none

theorem findByJiraKey_some {db : Db} {key : String} {row : Issue} (h : findByJiraKey db key = some row) :
    db.issues.findOne row.id = some row := Table.findOne_of_mem (List.mem_of_find?_eq_some h)

theorem applyWebhook_ok {now : Time} {db : Db} {payload : JiraPayload} {w : Write}
    (h : applyWebhook now db payload = .ok (some w)) :
    ∃ key categoryKey mapped row target, payload = ⟨some key, some categoryKey⟩ ∧ key ≠ "" ∧
      categoryToStatus categoryKey = some mapped ∧ findByJiraKey db key = some row ∧
      resolveTarget row.status mapped = .status target ∧ row.status ≠ target ∧
      w = webhookWrite now (row.toEntity {}) target := by
  unfold applyWebhook at h
  split at h
  · rename_i key categoryKey hkey hcategory
    split at h
    · cases h
    · rename_i hempty
      split at h
      · cases h
      · rename_i mapped hmapped
        split at h
        · cases h
        · rename_i row hrow
          split at h
          · cases h
          · rename_i target htarget
            split at h
            · cases h
            · rename_i hne
              cases h
              refine ⟨key, categoryKey, mapped, row, target, ?_, fun hc => hempty (.inl hc), hmapped, hrow,
                htarget, hne, rfl⟩
              cases payload
              simp_all
  · cases h

theorem categoryToStatus_cases {categoryKey : String} {mapped : Mapped}
    (h : categoryToStatus categoryKey = some mapped) :
    (categoryKey = "done" ∧ mapped = .status .resolved) ∨ mapped = .status .new ∨
      mapped = .status .inProgress ∨ mapped = .inherited := by
  unfold categoryToStatus at h
  split at h
  · cases h; exact .inr (.inl rfl)
  · split at h
    · cases h; exact .inr (.inr (.inl rfl))
    · split at h
      · rename_i hdone
        cases h
        exact .inl ⟨hdone, rfl⟩
      · split at h
        · cases h; exact .inr (.inr (.inr rfl))
        · cases h

end JiraInboundService

end Cimp
