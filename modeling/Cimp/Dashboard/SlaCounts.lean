import Mathlib.Tactic.NormNum
import Cimp.Authz.Scope
import Cimp.Issues.Sla
import Cimp.Issues.SlaEscalation

namespace Cimp

variable (numericIn : String → Option ℚ) (env : SlaEnv) (now : ℚ) (policies : Uuid → Option SlaPolicy)

/-- The sweep's `WHERE` on an issue joined to its platform's policy, its marker apart. -/
def SlaEscalationService.pastDue (issue : SlaColumns) : Except SqlError Bool := do
  let due ← slaDueSql numericIn env issue (policies issue.platform)
  return issue.status ∈ openIssueStatuses && due ≤ now

namespace DashboardService

def base (scope : PlatformScope) (issues : List SlaColumns) : List SlaColumns :=
  match scope with
  | .all => issues
  | .ids ids => issues.filter (fun issue => issue.platform ∈ ids)

def overdueAt (due : ℚ) : Bool := due ≤ now

def atRiskAt (issue : SlaColumns) (due : ℚ) : Bool :=
  now < due && issue.slaStartedAt + (due - issue.slaStartedAt) * slaAtRiskFraction env ≤ now

/-- The dashboard's `WHERE` and `FILTER` of the at-risk count. -/
def atRisk (issue : SlaColumns) : Except SqlError Bool := do
  let due ← slaDueSql numericIn env issue (policies issue.platform)
  return issue.status ∈ openIssueStatuses && atRiskAt env now issue due

structure SlaCounts where
  overdue : ℕ
  atRisk : ℕ
deriving DecidableEq, Repr

def slaCounts (scope : PlatformScope) (issues : List SlaColumns) : Except SqlError SlaCounts := do
  let rows := (base scope issues).filter (fun issue => issue.status ∈ openIssueStatuses)
  let dues ← rows.mapM fun issue => do
    let due ← slaDueSql numericIn env issue (policies issue.platform)
    return (issue, due)
  return {
    overdue := dues.countP fun row => overdueAt now row.2
    atRisk := dues.countP fun row => atRiskAt env now row.1 row.2 }

def summary (staff : AuthenticatedStaff) (issues : List SlaColumns) : Except SqlError SlaCounts :=
  match ScopeService.scopedPlatformIds staff with
  | .ids [] => .ok ⟨0, 0⟩
  | scope => slaCounts numericIn env now policies scope issues

end DashboardService

def slaStateOf (issue : SlaColumns) : Option SlaState :=
  (computeSla env (issue.input (policies issue.platform)) now).slaState

namespace DashboardService

variable {numericIn env now policies} (hstored : ∀ p, AdminService.StorablePolicy (policies p))
include hstored

theorem slaDueSql_due (issue : SlaColumns) :
    slaDueSql numericIn env issue (policies issue.platform) =
      .ok (slaDeadline env (issue.input (policies issue.platform))).due :=
  slaDueSql_eq (hstored issue.platform) numericIn env issue

theorem pastDue_eq (issue : SlaColumns) :
    SlaEscalationService.pastDue numericIn env now policies issue =
      .ok (issue.status ∈ openIssueStatuses && overdueAt now (slaDeadline env (issue.input (policies issue.platform))).due) := by
  rw [SlaEscalationService.pastDue, slaDueSql_due hstored]
  rfl

theorem atRisk_eq (issue : SlaColumns) :
    atRisk numericIn env now policies issue =
      .ok (issue.status ∈ openIssueStatuses &&
        atRiskAt env now issue (slaDeadline env (issue.input (policies issue.platform))).due) := by
  rw [atRisk, slaDueSql_due hstored]
  rfl

theorem mapM_due (rows : List SlaColumns) :
    (rows.mapM fun issue => do
      let due ← slaDueSql numericIn env issue (policies issue.platform)
      return (issue, due)) =
      .ok (rows.map fun issue => (issue, (slaDeadline env (issue.input (policies issue.platform))).due)) := by
  induction rows with
  | nil => rfl
  | cons issue rows ih =>
    rw [List.mapM_cons, ih, slaDueSql_due hstored]
    rfl

omit hstored

theorem slaStateOf_eq_some (env : SlaEnv) (now : ℚ) (policies : Uuid → Option SlaPolicy) (issue : SlaColumns)
    (state : SlaState) :
    slaStateOf env now policies issue = some state ↔ issue.status ∈ openIssueStatuses ∧
      SlaState.ofStage ((slaDeadline env (issue.input (policies issue.platform))).stage (slaAtRiskFraction env) now) =
        state := by
  by_cases hopen : issue.status ∈ openIssueStatuses
  · have hstate := computeSla_open env (issue.input (policies issue.platform)) hopen now
    rw [slaStateOf, hstate, Option.some_inj, and_iff_right hopen]
  · rw [slaStateOf, computeSla_not_open env (issue.input (policies issue.platform)) hopen]
    simp [hopen]

theorem slaStateOf_breached_iff (env : SlaEnv) (now : ℚ) (policies : Uuid → Option SlaPolicy) (issue : SlaColumns) :
    slaStateOf env now policies issue = some .breached ↔ issue.status ∈ openIssueStatuses ∧
      overdueAt now (slaDeadline env (issue.input (policies issue.platform))).due = true := by
  rw [slaStateOf_eq_some, SlaState.ofStage_eq_breached, Deadline.stage_eq_expired_iff, overdueAt, decide_eq_true_eq]

theorem slaStateOf_atRisk_iff (env : SlaEnv) (now : ℚ) (policies : Uuid → Option SlaPolicy) (issue : SlaColumns) :
    slaStateOf env now policies issue = some .atRisk ↔ issue.status ∈ openIssueStatuses ∧
      atRiskAt env now issue (slaDeadline env (issue.input (policies issue.platform))).due = true := by
  rw [slaStateOf_eq_some, SlaState.ofStage_eq_atRisk, Deadline.stage_eq_warned_iff, atRiskAt, Bool.and_eq_true,
    decide_eq_true_eq, decide_eq_true_eq]
  rfl

theorem slaStateOf_mono {issue : SlaColumns} (hopen : issue.status ∈ openIssueStatuses) {later : ℚ}
    (h : now ≤ later) :
    ∃ state state', slaStateOf env now policies issue = some state ∧
      slaStateOf env later policies issue = some state' ∧ state.rank ≤ state'.rank := by
  refine ⟨_, _, computeSla_open env _ hopen now, computeSla_open env _ hopen later, ?_⟩
  rw [SlaState.rank_ofStage, SlaState.rank_ofStage]
  exact Deadline.stage_mono _ _ h

def tally (env : SlaEnv) (now : ℚ) (policies : Uuid → Option SlaPolicy) (scope : PlatformScope)
    (issues : List SlaColumns) (state : SlaState) : ℕ :=
  issues.countP fun issue =>
    ScopeService.scopeAllows scope issue.platform && slaStateOf env now policies issue = some state

theorem mem_base {scope : PlatformScope} {issues : List SlaColumns} :
    base scope issues = issues.filter fun issue => ScopeService.scopeAllows scope issue.platform := by
  cases scope with
  | all => simp [base, ScopeService.scopeAllows]
  | ids ids => rfl

theorem slaCounts_eq (hstored : ∀ p, AdminService.StorablePolicy (policies p)) (scope : PlatformScope)
    (issues : List SlaColumns) :
    slaCounts numericIn env now policies scope issues =
      .ok ⟨tally env now policies scope issues .breached, tally env now policies scope issues .atRisk⟩ := by
  unfold slaCounts
  dsimp only
  rw [mapM_due hstored]
  simp only [bind, Except.bind, pure, Except.pure, List.countP_map, List.countP_filter, mem_base, tally]
  congr 2
  · apply List.countP_congr
    intro issue _
    have h := slaStateOf_breached_iff env now policies issue
    simp [h]
    tauto
  · apply List.countP_congr
    intro issue _
    have h := slaStateOf_atRisk_iff env now policies issue
    simp [h]
    tauto

theorem slaCounts_agrees (numericIn : String → Option ℚ) (env : SlaEnv) (policies : Uuid → Option SlaPolicy)
    (hstored : ∀ p, AdminService.StorablePolicy (policies p)) :
    (∀ now issue, slaStateOf env now policies issue = some .breached ↔
      SlaEscalationService.pastDue numericIn env now policies issue = .ok true) ∧
    (∀ now issue, slaStateOf env now policies issue = some .atRisk ↔
      atRisk numericIn env now policies issue = .ok true) ∧
    (∀ now scope issues, slaCounts numericIn env now policies scope issues =
      .ok ⟨tally env now policies scope issues .breached, tally env now policies scope issues .atRisk⟩) ∧
    (∀ issue : SlaColumns, issue.status ∈ openIssueStatuses → ∀ now later, now ≤ later →
      ∃ state state', slaStateOf env now policies issue = some state ∧
        slaStateOf env later policies issue = some state' ∧ state.rank ≤ state'.rank) := by
  refine ⟨?_, ?_, ?_, ?_⟩
  · intro now issue
    rw [pastDue_eq hstored, slaStateOf_breached_iff]
    simp
  · intro now issue
    rw [atRisk_eq hstored, slaStateOf_atRisk_iff]
    simp
  · intro now scope issues
    exact slaCounts_eq hstored scope issues
  · intro issue hopen now later h
    exact slaStateOf_mono hopen h

def tenHours (platform : Uuid) : Option SlaPolicy :=
  if platform = "portal-a" then some [("HIGH", .number 10)] else none

theorem tenHours_storable (p : Uuid) : AdminService.StorablePolicy (tenHours p) := by
  unfold tenHours
  split
  · exact ⟨ℚ, some, some [("HIGH", 10)], by norm_num [AdminService.validateSlaPolicy,
      AdminService.validateSlaEntries, AdminService.assign, Priority.values, Priority.value, bind, Except.bind,
      pure, Except.pure]⟩
  · exact ⟨ℚ, some, none, rfl⟩

theorem slaCounts_agrees_tenHours :
    (∀ p, AdminService.StorablePolicy (tenHours p)) ∧ ∀ now issue,
      slaStateOf ⟨fun _ => none, none⟩ now tenHours issue = some .breached ↔
        SlaEscalationService.pastDue (fun _ => none) ⟨fun _ => none, none⟩ now tenHours issue = .ok true :=
  ⟨tenHours_storable, (slaCounts_agrees (fun _ => none) ⟨fun _ => none, none⟩ tenHours tenHours_storable).1⟩

end DashboardService

def Issue.slaColumns (row : Issue) : SlaColumns where
  status := row.status
  priority := row.priority
  platform := row.platform
  createdAt := row.createdAt
  slaStartedAt := row.slaStartedAt

/-- The sweep selects the rows that are past due and not yet marked. -/
theorem SlaEscalationService.overdue_iff_pastDue {cfg : Config} {env : SlaEnv} {policies : Uuid → Option SlaPolicy}
    (hstored : ∀ p, AdminService.StorablePolicy (policies p))
    (hwindow : ∀ p priority, (cfg.slaWindow p priority : ℚ) = slaWindowHours env priority (policies p) * hour)
    (numericIn : String → Option ℚ) (now : Time) (row : Issue) :
    overdue cfg now row = true ↔
      row.slaBreachedAt = none ∧ pastDue numericIn env now policies row.slaColumns = .ok true := by
  have hdue : slaDue cfg row ≤ now ↔
      (row.slaStartedAt : ℚ) + slaWindowHours env row.priority (policies row.platform) * hour ≤ now := by
    rw [slaDue, ← hwindow]
    norm_cast
  have hpast : pastDue numericIn env now policies row.slaColumns =
      .ok (row.status ∈ openIssueStatuses && slaDue cfg row ≤ now) := by
    rw [DashboardService.pastDue_eq hstored, decide_eq_decide.mpr hdue]
    rfl
  rw [hpast]
  simp only [overdue, Bool.and_eq_true, decide_eq_true_eq, Except.ok.injEq]
  tauto

end Cimp
