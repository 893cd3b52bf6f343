import Cimp.Issues.Operation
import Mathlib.Data.List.Find

namespace Cimp

def Issue.timeless (row : Issue) : Issue :=
  { row with
    createdAt := 0
    updatedAt := 0
    slaStartedAt := 0
    slaBreachedAt := row.slaBreachedAt.map fun _ => 0
    resolvedAt := row.resolvedAt.map fun _ => 0
    closedAt := row.closedAt.map fun _ => 0 }

def AuditEvent.timeless (e : AuditEvent) : AuditEvent := { e with createdAt := 0 }

/-- The same issues and audit rows, whatever their times. -/
def Db.SameButTimes (db db' : Db) : Prop :=
  db.issues.rows.map Issue.timeless = db'.issues.rows.map Issue.timeless ∧
    db.auditEvents.map AuditEvent.timeless = db'.auditEvents.map AuditEvent.timeless

namespace JiraInboundService

/-- One delivery that no database call fails, with what `applied` is in the answer. -/
def deliver (now : Time) (payload : JiraPayload) (db : Db) : Db × Except HttpException Bool :=
  match applyWebhook now db payload with
  | .error e => (db, .error e)
  | .ok none => (db, .ok false)
  | .ok (some w) => (w.commit { now := now } db, .ok true)

theorem deliver_eq_run (cfg : Config) (now : Time) (payload : JiraPayload) (db : Db) :
    (deliver now payload db).1 = (Request.webhook payload).run cfg { now := now } db := by
  simp only [deliver, Request.run, Request.load]
  cases applyWebhook now db payload with
  | error e => rfl
  | ok found => cases found <;> rfl

def knownCategories : List String := ["new", "indeterminate", "done"]

/-- What a redelivery and an unknown category are to do. -/
structure WebhookLaw (db : Db) (payload : JiraPayload) : Prop where
  idempotent : ∀ now later,
    (deliver later payload (deliver now payload db).1).1.SameButTimes (deliver now payload db).1
  unknown : (∀ categoryKey ∈ knownCategories, payload.categoryKey ≠ some categoryKey) →
    ∀ now, deliver now payload db = (db, .ok false)

/-- The issue a payload is about and what its category says. -/
def linked (db : Db) (payload : JiraPayload) : Option (Issue × Mapped) :=
  match payload.key, payload.categoryKey with
  | some key, some categoryKey =>
    if key = "" ∨ categoryKey = "" then none
    else (categoryToStatus categoryKey).bind fun mapped => (findByJiraKey db key).map fun row => (row, mapped)
  | _, _ => none

variable {db : Db} {payload : JiraPayload} {row : Issue} {mapped : Mapped} {target : IssueStatus} {now later : Time}

theorem applyWebhook_eq (now : Time) (db : Db) (payload : JiraPayload) : applyWebhook now db payload =
    match linked db payload with
    | none => .ok none
    | some (row, mapped) =>
      match resolveTarget row.status mapped with
      | .inherited => .error (.badRequest "Malformed request parameter.")
      | .status target =>
        if row.status = target then .ok none else .ok (some (webhookWrite now (row.toEntity {}) target)) := by
  obtain ⟨key, categoryKey⟩ := payload
  unfold applyWebhook linked
  cases key with
  | none => rfl
  | some key =>
    cases categoryKey with
    | none => rfl
    | some categoryKey =>
      dsimp only
      split_ifs with hempty
      · rfl
      · cases categoryToStatus categoryKey with
        | none => rfl
        | some mapped =>
          cases findByJiraKey db key with
          | none => rfl
          | some row => rfl

theorem deliver_of_not_linked (now : Time) (h : linked db payload = none) : deliver now payload db = (db, .ok false) := by
  rw [deliver, applyWebhook_eq, h]

theorem deliver_of_same (now : Time) (h : linked db payload = some (row, mapped))
    (htarget : resolveTarget row.status mapped = .status row.status) : deliver now payload db = (db, .ok false) := by
  rw [deliver, applyWebhook_eq, h]
  simp [htarget]

theorem deliver_of_inherited (now : Time) (h : linked db payload = some (row, mapped))
    (htarget : resolveTarget row.status mapped = .inherited) :
    deliver now payload db = (db, .error (.badRequest "Malformed request parameter.")) := by
  rw [deliver, applyWebhook_eq, h]
  simp [htarget]

def moved (now : Time) (row : Issue) (target : IssueStatus) : Issue := ((row.toEntity {}).setStatus now target).written now row

theorem moved_columns (now : Time) (row : Issue) (target : IssueStatus) :
    (moved now row target).toIssueColumns = ((row.toEntity {}).setStatus now target).toIssueColumns :=
  IssueEntity.written_columns _ _ _

@[simp] theorem moved_status : (moved now row target).status = target := by
  have h := congrArg IssueColumns.status (moved_columns now row target)
  simpa using h

@[simp] theorem moved_jiraIssueKey : (moved now row target).jiraIssueKey = row.jiraIssueKey := by
  have h := congrArg IssueColumns.jiraIssueKey (moved_columns now row target)
  rw [h]
  cases target <;> rfl

theorem findByJiraKey_update {db' : Db} {key : String} (hrow : findByJiraKey db key = some row)
    (hissues : db'.issues = db.issues.update row.id (((row.toEntity {}).setStatus now target).written now)
      (IssueEntity.written_id now _)) : findByJiraKey db' key = some (moved now row target) := by
  have hone : ∀ r ∈ db.issues.rows, r.id = row.id → r = row := by
    intro r hr hid
    exact List.inj_on_of_nodup_map db.issues.nodup hr (List.mem_of_find?_eq_some hrow) hid
  have hkey : ∀ r ∈ db.issues.rows,
      (if r.id = row.id then ((row.toEntity {}).setStatus now target).written now r else r).jiraIssueKey = r.jiraIssueKey := by
    intro r hr
    split_ifs with hid
    · rw [hone r hr hid]
      exact moved_jiraIssueKey
    · rfl
  have hfind : db.issues.rows.find? (fun r =>
      (if r.id = row.id then ((row.toEntity {}).setStatus now target).written now r else r).jiraIssueKey = some key) =
      some row := by
    rw [← hrow]
    apply List.find?_congr
    intro r hr
    rw [hkey r hr]
  rw [findByJiraKey, hissues, Table.update, List.find?_map]
  have hcomp := congrArg (Option.map fun r =>
    if r.id = row.id then ((row.toEntity {}).setStatus now target).written now r else r) hfind
  simpa [Function.comp_def, moved] using hcomp

theorem linked_eq_some : linked db payload = some (row, mapped) ↔ ∃ key categoryKey, payload = ⟨some key, some categoryKey⟩ ∧
    key ≠ "" ∧ categoryKey ≠ "" ∧ categoryToStatus categoryKey = some mapped ∧ findByJiraKey db key = some row := by
  obtain ⟨key, categoryKey⟩ := payload
  cases key with
  | none => simp [linked]
  | some key =>
    cases categoryKey with
    | none => simp [linked]
    | some categoryKey =>
      by_cases hempty : key = "" ∨ categoryKey = ""
      · simp only [linked, if_pos hempty, JiraPayload.mk.injEq, Option.some.injEq]
        grind
      · simp only [linked, if_neg hempty, Option.bind_eq_some_iff, Option.map_eq_some_iff, JiraPayload.mk.injEq,
          Option.some.injEq, Prod.mk.injEq]
        grind

theorem deliver_of_moves (now : Time) (h : linked db payload = some (row, mapped))
    (htarget : resolveTarget row.status mapped = .status target) (hne : row.status ≠ target) :
    (deliver now payload db).2 = .ok true ∧
      linked (deliver now payload db).1 payload = some (moved now row target, mapped) := by
  obtain ⟨key, categoryKey, rfl, hkey, hcategoryKey, hmapped, hrow⟩ := linked_eq_some.mp h
  have hdeliver : deliver now ⟨some key, some categoryKey⟩ db =
      ((webhookWrite now (row.toEntity {}) target).commit { now := now } db, .ok true) := by
    rw [deliver, applyWebhook_eq, h]
    simp [htarget, hne]
  obtain ⟨db', hbody⟩ : ∃ db', (webhookWrite now (row.toEntity {}) target).body { now := now } db = some db' := ⟨_, rfl⟩
  have hissues := (Write.body_spec hbody).1
  rw [hdeliver, Write.commit, hbody]
  refine ⟨rfl, linked_eq_some.mpr ⟨key, categoryKey, rfl, hkey, hcategoryKey, hmapped, ?_⟩⟩
  apply findByJiraKey_update hrow
  simp only [webhookWrite, IssueEntity.setStatus_id] at hissues
  exact hissues

theorem findByJiraKey_of_same {db' : Db} (h : db.SameButTimes db') (key : String) :
    (findByJiraKey db key).map (fun r => r.status) = (findByJiraKey db' key).map fun r => r.status := by
  have hfind (db : Db) : (findByJiraKey db key).map (fun r => r.status) =
      ((db.issues.rows.map Issue.timeless).find? fun r => r.jiraIssueKey = some key).map fun r => r.status := by
    rw [List.find?_map, Option.map_map]
    rfl
  rw [hfind, hfind, h.1]

theorem linked_of_same {db' : Db} {row' : Issue} {mapped' : Mapped} (h : db.SameButTimes db')
    (hrow : linked db payload = some (row, mapped)) (hrow' : linked db' payload = some (row', mapped')) :
    row.status = row'.status := by
  obtain ⟨key, _, rfl, _, _, _, hfound⟩ := linked_eq_some.mp hrow
  obtain ⟨_, _, hpayload, _, _, _, hfound'⟩ := linked_eq_some.mp hrow'
  cases hpayload
  have hstatus := findByJiraKey_of_same h key
  rw [hfound, hfound'] at hstatus
  exact Option.some.inj hstatus

theorem resolveTarget_of_not_terminal (h : row.status ∉ terminalStatuses) : resolveTarget row.status mapped = mapped := by
  simp [resolveTarget, h]

theorem resolveTarget_of_terminal (h : row.status ∈ terminalStatuses) (hmapped : mapped ≠ .status .resolved) :
    resolveTarget row.status mapped = .status .reopened := by
  simp [resolveTarget, h, hmapped]

theorem not_known_of_inherited : ∀ categoryKey ∈ inheritedProperties, categoryKey ∉ knownCategories := by decide

theorem inherited_iff {categoryKey : String} :
    categoryToStatus categoryKey = some .inherited ↔ categoryKey ∈ inheritedProperties := by
  constructor
  · intro h
    unfold categoryToStatus at h
    split at h
    · cases h
    · split at h
      · cases h
      · split at h
        · cases h
        · split at h
          · assumption
          · cases h
  · intro h
    have hunknown := not_known_of_inherited categoryKey h
    simp only [knownCategories, List.mem_cons, List.not_mem_nil, or_false, not_or] at hunknown
    simp [categoryToStatus, hunknown, h]

theorem known_of_status {categoryKey : String} {s : IssueStatus} (h : categoryToStatus categoryKey = some (.status s)) :
    (categoryKey = "new" ∧ s = .new) ∨ (categoryKey = "indeterminate" ∧ s = .inProgress) ∨
      (categoryKey = "done" ∧ s = .resolved) := by
  unfold categoryToStatus at h
  split_ifs at h <;> grind

/-- The category may be delivered again, and is one of the three. -/
def Settles (row : Issue) (mapped : Mapped) : Prop :=
  ∃ s, mapped = .status s ∧ (row.status ∈ terminalStatuses → s = .resolved)

theorem settles_of_law (h : WebhookLaw db payload) (hlinked : linked db payload = some (row, mapped)) :
    Settles row mapped := by
  obtain ⟨key, categoryKey, rfl, _, _, hmapped, _⟩ := linked_eq_some.mp hlinked
  cases mapped with
  | inherited =>
    have hunknown : ∀ c ∈ knownCategories, (some categoryKey : Option String) ≠ some c := by
      rintro c hc ⟨rfl⟩
      exact not_known_of_inherited _ (inherited_iff.mp hmapped) hc
    have hnothing := h.unknown hunknown 0
    by_cases hterminal : row.status ∈ terminalStatuses
    · have hne : row.status ≠ .reopened := fun he => by simp [he, terminalStatuses] at hterminal
      have hmoves := (deliver_of_moves 0 hlinked (resolveTarget_of_terminal hterminal (by simp)) hne).1
      rw [hnothing] at hmoves
      simp at hmoves
    · rw [deliver_of_inherited 0 hlinked (resolveTarget_of_not_terminal hterminal)] at hnothing
      simp at hnothing
  | status s =>
    refine ⟨s, rfl, fun hterminal => ?_⟩
    by_contra hs
    have hne : row.status ≠ .reopened := fun he => by simp [he, terminalStatuses] at hterminal
    have hfirst := (deliver_of_moves 0 hlinked (resolveTarget_of_terminal hterminal (by simpa using hs)) hne).2
    have hmoved : IssueStatus.reopened ≠ s := by
      rcases known_of_status hmapped with ⟨_, rfl⟩ | ⟨_, rfl⟩ | ⟨_, rfl⟩ <;> decide
    have hagain : resolveTarget (moved 0 row .reopened).status (.status s) = .status s :=
      resolveTarget_of_not_terminal (by simp [terminalStatuses])
    have hsecond := (deliver_of_moves 0 hfirst hagain (by simpa using hmoved)).2
    have hstatus := linked_of_same (h.idempotent 0 0) hsecond hfirst
    simp only [moved_status] at hstatus
    exact hmoved hstatus.symm

theorem law_of_settles (h : ∀ row mapped, linked db payload = some (row, mapped) → Settles row mapped) :
    WebhookLaw db payload := by
  cases hlinked : linked db payload with
  | none =>
    refine ⟨fun now later => ?_, fun _ now => deliver_of_not_linked now hlinked⟩
    rw [deliver_of_not_linked now hlinked, deliver_of_not_linked later hlinked]
    exact ⟨rfl, rfl⟩
  | some found =>
    obtain ⟨row, mapped⟩ := found
    obtain ⟨s, rfl, hterminal⟩ := h row mapped hlinked
    obtain ⟨key, categoryKey, rfl, _, _, hmapped, _⟩ := linked_eq_some.mp hlinked
    have htarget : resolveTarget row.status (.status s) = .status s := by
      by_cases ht : row.status ∈ terminalStatuses
      · simp [resolveTarget, hterminal ht]
      · exact resolveTarget_of_not_terminal ht
    have hagain : resolveTarget s (.status s) = .status s := by
      rcases known_of_status hmapped with ⟨_, rfl⟩ | ⟨_, rfl⟩ | ⟨_, rfl⟩ <;> decide
    refine ⟨fun now later => ?_, fun hunknown => ?_⟩
    · by_cases hsame : row.status = s
      · subst hsame
        rw [deliver_of_same now hlinked htarget, deliver_of_same later hlinked htarget]
        exact ⟨rfl, rfl⟩
      · have honce := (deliver_of_moves now hlinked htarget hsame).2
        rw [deliver_of_same later honce (by simpa using hagain)]
        exact ⟨rfl, rfl⟩
    · exfalso
      rcases known_of_status hmapped with ⟨rfl, _⟩ | ⟨rfl, _⟩ | ⟨rfl, _⟩ <;>
        exact hunknown _ (by simp [knownCategories]) rfl

theorem webhookLaw_iff (db : Db) (payload : JiraPayload) :
    WebhookLaw db payload ↔ ∀ key categoryKey row, payload = ⟨some key, some categoryKey⟩ → key ≠ "" →
      findByJiraKey db key = some row →
        categoryKey ∉ inheritedProperties ∧
          (categoryKey ∈ ["new", "indeterminate"] → row.status ∉ terminalStatuses) := by
  constructor
  · rintro h key categoryKey row rfl hkey hrow
    have hlinked (mapped : Mapped) (hmapped : categoryToStatus categoryKey = some mapped) (hne : categoryKey ≠ "") :
        Settles row mapped :=
      settles_of_law h (linked_eq_some.mpr ⟨key, categoryKey, rfl, hkey, hne, hmapped, hrow⟩)
    constructor
    · intro hinherited
      have hne : categoryKey ≠ "" := fun he => absurd (he ▸ hinherited) (by decide)
      obtain ⟨s, hs, _⟩ := hlinked .inherited (inherited_iff.mpr hinherited) hne
      cases hs
    · intro hcategory hterminal
      rcases List.mem_pair.mp hcategory with rfl | rfl
      · obtain ⟨s, hs, hresolved⟩ := hlinked (.status .new) rfl (by decide)
        cases hs
        exact absurd (hresolved hterminal) (by decide)
      · obtain ⟨s, hs, hresolved⟩ := hlinked (.status .inProgress) rfl (by decide)
        cases hs
        exact absurd (hresolved hterminal) (by decide)
  · intro h
    apply law_of_settles
    intro row mapped hlinked
    obtain ⟨key, categoryKey, hpayload, hkey, _, hmapped, hrow⟩ := linked_eq_some.mp hlinked
    obtain ⟨hinherited, hopen⟩ := h key categoryKey row hpayload hkey hrow
    cases mapped with
    | inherited => exact absurd (inherited_iff.mp hmapped) hinherited
    | status s =>
      refine ⟨s, rfl, fun hterminal => ?_⟩
      rcases known_of_status hmapped with ⟨rfl, _⟩ | ⟨rfl, _⟩ | ⟨_, hs⟩
      · exact absurd hterminal (hopen (by simp))
      · exact absurd hterminal (hopen (by simp))
      · exact hs

namespace Sample

def closedIssue : Issue :=
  { id := "A", platform := "P", reporter := "reporter", assignee := none, duplicateOf := none, version := 3, updatedAt := 2,
    referenceNo := "A", description := "It does not load", publiclyVisible := false, publicTitle := none, context := none,
    status := .closed, priority := .medium, jiraIssueKey := some "SUP-1", jiraSyncStatus := .synced, createdAt := 0,
    slaStartedAt := 0, slaBreachedAt := none, resolvedAt := some 1, closedAt := some 2 }

def closedInJira : Db := { Db.empty with issues := ⟨[closedIssue], by decide⟩ }

end Sample

theorem redelivery_moves_again : ¬ WebhookLaw Sample.closedInJira ⟨some "SUP-1", some "indeterminate"⟩ := by
  intro h
  have hlinked : linked Sample.closedInJira ⟨some "SUP-1", some "indeterminate"⟩ =
      some (Sample.closedIssue, .status .inProgress) := by decide
  obtain ⟨s, hs, hresolved⟩ := settles_of_law h hlinked
  cases hs
  exact absurd (hresolved (by decide)) (by decide)

end JiraInboundService

end Cimp
