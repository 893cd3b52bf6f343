import Mathlib.Algebra.Order.Field.Rat
import Cimp.Entities
import Cimp.Lib.Deadline

namespace Cimp

/-- A value under a key of a `jsonb` object. -/
inductive Json
  | null
  | bool (b : Bool)
  | number (n : ℚ)
  | string (s : String)
deriving DecidableEq, Repr

abbrev SlaPolicy := List (String × Json)

/-- What `Number(...)` makes of the `SLA_*` variables: `none` for one that is unset or not finite. -/
structure SlaEnv where
  hours : Priority → Option ℚ
  atRiskFraction : Option ℚ

def hour : ℚ := 3600000

def hoursFromEnv (n : Option ℚ) (fallback : ℚ) : ℚ :=
  match n with
  | some n => if 0 < n then n else fallback
  | none => fallback

def slaTargetHours (env : SlaEnv) : Priority → ℚ
  | .critical => hoursFromEnv (env.hours .critical) 4
  | .high => hoursFromEnv (env.hours .high) 24
  | .medium => hoursFromEnv (env.hours .medium) 72
  | .low => hoursFromEnv (env.hours .low) 168

def slaAtRiskFraction (env : SlaEnv) : ℚ :=
  match env.atRiskFraction with
  | some n => if 0 < n ∧ n < 1 then n else 4 / 5
  | none => 4 / 5

inductive SlaState
  | onTrack | atRisk | breached
deriving DecidableEq, Repr

def SlaState.rank : SlaState → ℕ
  | onTrack => 0
  | atRisk => 1
  | breached => 2

def slaWindowHours (env : SlaEnv) (priority : Priority) (policy : Option SlaPolicy) : ℚ :=
  match policy.bind (List.lookup priority.value) with
  | some (.number override) => if 0 < override then override else slaTargetHours env priority
  | _ => slaTargetHours env priority

structure SlaColumns where
  status : IssueStatus
  priority : Priority
  platform : Uuid
  createdAt : ℚ
  slaStartedAt : ℚ
deriving DecidableEq, Repr

structure SlaInput where
  status : IssueStatus
  priority : Priority
  createdAt : ℚ
  slaStartedAt : Option ℚ
  platform : Option (Option SlaPolicy)
deriving DecidableEq, Repr

def SlaColumns.input (row : SlaColumns) (policy : Option SlaPolicy) : SlaInput where
  status := row.status
  priority := row.priority
  createdAt := row.createdAt
  slaStartedAt := some row.slaStartedAt
  platform := some policy

structure Sla where
  dueAt : ℚ
  slaState : Option SlaState
deriving DecidableEq, Repr

def computeSla (env : SlaEnv) (input : SlaInput) (now : ℚ) : Sla :=
  let baseline := input.slaStartedAt.getD input.createdAt
  let windowMs := slaWindowHours env input.priority input.platform.join * hour
  let dueAt := baseline + windowMs
  if input.status ∉ openIssueStatuses then ⟨dueAt, none⟩
  else
    let elapsed := now - baseline
    if windowMs ≤ elapsed then ⟨dueAt, some .breached⟩
    else if windowMs * slaAtRiskFraction env ≤ elapsed then ⟨dueAt, some .atRisk⟩
    else ⟨dueAt, some .onTrack⟩

inductive SqlError
  | invalidTextRepresentation (text : String)
deriving DecidableEq, Repr

/-- What `->>` gives: the digits of a number, which `numeric` reads back, or other text. -/
inductive SqlText
  | digits (n : ℚ)
  | chars (s : String)
deriving DecidableEq, Repr

namespace Sql

/-- `policy ->> key`, `none` for `NULL`. -/
def textAt (policy : Option SlaPolicy) (key : String) : Option SqlText :=
  match policy.bind (List.lookup key) with
  | none => none
  | some .null => none
  | some (.bool b) => some (.chars (if b then "true" else "false"))
  | some (.number n) => some (.digits n)
  | some (.string s) => some (.chars s)

def nullIfEmpty : Option SqlText → Option SqlText
  | some (.chars "") => none
  | text => text

/-- `text::numeric`, where `numericIn` reads the text of a number. -/
def castNumeric (numericIn : String → Option ℚ) : Option SqlText → Except SqlError (Option ℚ)
  | none => .ok none
  | some (.digits n) => .ok (some n)
  | some (.chars s) =>
    match numericIn s with
    | some n => .ok (some n)
    | none => .error (.invalidTextRepresentation s)

end Sql

def slaDueSql (numericIn : String → Option ℚ) (env : SlaEnv) (issue : SlaColumns) (policy : Option SlaPolicy) :
    Except SqlError ℚ := do
  let policyHours ← Sql.castNumeric numericIn (Sql.nullIfEmpty (Sql.textAt policy issue.priority.value))
  let defaultHours := slaTargetHours env issue.priority
  return issue.slaStartedAt + (policyHours.filter (fun h => 0 < h)).getD defaultHours * hour

namespace AdminService

def assign {α : Type} (out : List (String × α)) (key : String) (value : α) : List (String × α) :=
  out.filter (fun e => e.1 ≠ key) ++ [(key, value)]

/-- `number` is `Number(value)`, `none` when that is not finite. -/
def validateSlaEntries {α : Type} (number : α → Option ℚ) :
    List (String × α) → SlaPolicy → Except HttpException SlaPolicy
  | [], out => .ok out
  | (key, value) :: entries, out =>
    if key ∉ Priority.values.map Priority.value then
      .error (.badRequest s!"Unknown SLA priority \"{key}\".")
    else
      match number value with
      | none => .error (.badRequest s!"SLA hours for {key} must be between 0 and 8760.")
      | some hours =>
        if hours ≤ 0 ∨ 8760 < hours then
          .error (.badRequest s!"SLA hours for {key} must be between 0 and 8760.")
        else validateSlaEntries number entries (assign out key (.number hours))

def validateSlaPolicy {α : Type} (number : α → Option ℚ) (policy : Option (List (String × α))) :
    Except HttpException (Option SlaPolicy) :=
  match policy with
  | none => .ok none
  | some entries => do
    let out ← validateSlaEntries number entries []
    return if 0 < out.length then some out else none

def StorablePolicy (policy : Option SlaPolicy) : Prop :=
  ∃ (α : Type) (number : α → Option ℚ) (given : Option (List (String × α))),
    validateSlaPolicy number given = .ok policy

end AdminService

def SlaPolicy.Valid (policy : SlaPolicy) : Prop :=
  ∀ e ∈ policy, e.1 ∈ Priority.values.map Priority.value ∧ ∃ hours, e.2 = .number hours ∧ 0 < hours ∧ hours ≤ 8760

namespace AdminService

theorem assign_valid {out : SlaPolicy} {key : String} {hours : ℚ} (hout : out.Valid)
    (hkey : key ∈ Priority.values.map Priority.value) (hpos : 0 < hours) (hle : hours ≤ 8760) :
    SlaPolicy.Valid (assign out key (.number hours)) := by
  intro e he
  rcases List.mem_append.mp he with hkept | hnew
  · exact hout e (List.mem_filter.mp hkept).1
  · obtain rfl := List.mem_singleton.mp hnew
    exact ⟨hkey, hours, rfl, hpos, hle⟩

theorem validateSlaEntries_valid {α : Type} {number : α → Option ℚ} {entries : List (String × α)}
    {out stored : SlaPolicy} (hout : out.Valid) (h : validateSlaEntries number entries out = .ok stored) :
    stored.Valid := by
  induction entries generalizing out with
  | nil =>
    cases h
    exact hout
  | cons e entries ih =>
    obtain ⟨key, value⟩ := e
    unfold validateSlaEntries at h
    split at h
    · cases h
    rename_i hkey
    split at h
    · cases h
    rename_i hours _
    split at h
    · cases h
    rename_i hbounds
    rw [not_or, not_le, not_lt] at hbounds
    exact ih (assign_valid hout (not_not.mp hkey) hbounds.1 hbounds.2) h

theorem StorablePolicy.valid {policy : SlaPolicy} (h : StorablePolicy (some policy)) : policy.Valid := by
  obtain ⟨α, number, given, hgiven⟩ := h
  cases given with
  | none => cases hgiven
  | some entries =>
    obtain ⟨out, hout, hstored⟩ := bind_ok hgiven
    have hempty : SlaPolicy.Valid [] := List.forall_mem_nil _
    have hvalid := validateSlaEntries_valid hempty hout
    cases out with
    | nil => cases hstored
    | cons e out =>
      cases hstored
      exact hvalid

end AdminService

theorem lookup_of_valid {policy : SlaPolicy} (h : policy.Valid) (key : String) :
    policy.lookup key = none ∨ ∃ hours, policy.lookup key = some (.number hours) ∧ 0 < hours := by
  cases hlookup : policy.lookup key with
  | none => exact .inl rfl
  | some value =>
    have hmem : (key, value) ∈ policy := by
      obtain ⟨before, after, rfl, _⟩ := List.lookup_eq_some_iff.mp hlookup
      simp
    obtain ⟨_, hours, rfl, hpos, _⟩ := h _ hmem
    exact .inr ⟨hours, rfl, hpos⟩

theorem slaDueSql_eq {policy : Option SlaPolicy} (h : AdminService.StorablePolicy policy)
    (numericIn : String → Option ℚ) (env : SlaEnv) (issue : SlaColumns) :
    slaDueSql numericIn env issue policy =
      .ok (issue.slaStartedAt + slaWindowHours env issue.priority policy * hour) := by
  cases policy with
  | none => rfl
  | some policy =>
    rcases lookup_of_valid h.valid issue.priority.value with hnone | ⟨hours, hsome, hpos⟩
    · simp [slaDueSql, slaWindowHours, Sql.textAt, Sql.nullIfEmpty, Sql.castNumeric, hnone, bind, Except.bind,
        pure, Except.pure]
    · simp [slaDueSql, slaWindowHours, Sql.textAt, Sql.nullIfEmpty, Sql.castNumeric, hsome, hpos,
        Option.filter, bind, Except.bind, pure, Except.pure]

def SlaState.ofStage : Deadline.Stage → SlaState
  | .running => .onTrack
  | .warned => .atRisk
  | .expired => .breached

theorem SlaState.rank_ofStage (s : Deadline.Stage) : (ofStage s).rank = s.rank := by cases s <;> rfl

@[simp] theorem SlaState.ofStage_eq_breached (s : Deadline.Stage) : ofStage s = breached ↔ s = .expired := by
  cases s <;> decide

@[simp] theorem SlaState.ofStage_eq_atRisk (s : Deadline.Stage) : ofStage s = atRisk ↔ s = .warned := by
  cases s <;> decide

def slaDeadline (env : SlaEnv) (input : SlaInput) : Deadline ℚ where
  start := input.slaStartedAt.getD input.createdAt
  length := slaWindowHours env input.priority input.platform.join * hour

theorem computeSla_open (env : SlaEnv) (input : SlaInput) (h : input.status ∈ openIssueStatuses) (now : ℚ) :
    (computeSla env input now).slaState =
      some (.ofStage ((slaDeadline env input).stage (slaAtRiskFraction env) now)) := by
  unfold computeSla Deadline.stage slaDeadline
  by_cases hbreached : slaWindowHours env input.priority input.platform.join * hour ≤
      now - input.slaStartedAt.getD input.createdAt
  · simp [h, hbreached, SlaState.ofStage]
  · by_cases hatRisk : slaWindowHours env input.priority input.platform.join * hour * slaAtRiskFraction env ≤
        now - input.slaStartedAt.getD input.createdAt
    · simp [h, hbreached, hatRisk, SlaState.ofStage]
    · simp [h, hbreached, hatRisk, SlaState.ofStage]

theorem computeSla_not_open (env : SlaEnv) (input : SlaInput) (h : input.status ∉ openIssueStatuses) (now : ℚ) :
    (computeSla env input now).slaState = none := by
  simp [computeSla, h]

theorem computeSla_dueAt (env : SlaEnv) (input : SlaInput) (now : ℚ) :
    (computeSla env input now).dueAt = (slaDeadline env input).due := by
  unfold computeSla
  dsimp only
  split_ifs <;> rfl

end Cimp
