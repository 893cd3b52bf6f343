import Cimp.Issues.AuditReplay
import Mathlib.Data.Finset.Insert

namespace Cimp

open Execution Journal Transaction

structure Triage where
  priority : Priority
  assignee : Option Uuid
  labels : Finset Uuid
deriving DecidableEq

def Db.labelsOf (db : Db) (issueId : Uuid) : Finset Uuid :=
  ((db.issueLabels.filter fun il => il.issue = issueId).map IssueLabel.label).toFinset

def Issue.triage (db : Db) (row : Issue) : Triage := ⟨row.priority, row.assignee, db.labelsOf row.id⟩

def Db.triage (db : Db) (issueId : Uuid) : Option Triage := (db.issues.findOne issueId).map (Issue.triage db)

namespace AutomationRule

def effect (rule : AutomationRule) (t : Triage) : Triage :=
  match rule.action with
  | .setPriority => { t with priority := (Priority.ofValue rule.actionValue).getD t.priority }
  | .assign => { t with assignee := some rule.actionValue }
  | .addLabel => { t with labels := insert rule.actionValue t.labels }

def audit (rule : AutomationRule) (issueId : Uuid) (before after : Triage) : AuditInput :=
  match rule.action with
  | .setPriority => ⟨issueId, .system, none, "PRIORITY_CHANGED", "priority", before.priority.value, after.priority.value⟩
  | .assign => ⟨issueId, .system, none, "ASSIGNED", "assignee", before.assignee, after.assignee⟩
  | .addLabel => ⟨issueId, .system, none, "LABEL_ADDED", "label", none, rule.actionValue⟩

def event (rule : AutomationRule) (issueId platformId : Uuid) (before after : Triage) : Option IssueEvent :=
  match rule.action with
  | .setPriority =>
    some (.priorityChanged issueId platformId before.priority after.priority AutomationService.systemActor)
  | .assign => some (.assigned issueId platformId after.assignee AutomationService.systemActor)
  | .addLabel => none

end AutomationRule

def Env.commits (env : Env) : Bool := !env.statement 0 && !env.statement 1

namespace AutomationService

/-- The rule does not fail: its value passes the checks, and no database call of it fails. -/
def lands (cfg : Config) (env : Env) (db : Db) (platformId : Uuid) (rule : AutomationRule) : Bool :=
  match rule.action with
  | .setPriority => (Priority.ofValue rule.actionValue).isSome && env.commits
  | .assign => !env.read && (assertAssignable cfg db rule.actionValue platformId).isOk && env.commits
  | .addLabel => (db.labels.findOne rule.actionValue).isSome && env.commits

/-- What a run is to come to: the decisions so far, the audit rows and the events. -/
structure Ledger where
  triage : Triage
  rows : List AuditEvent
  events : List IssueEvent

section

variable (cfg : Config) (env : ℕ → Env) (db : Db) (issue : Issue)

/-- A rule that fails or changes nothing leaves no trace; every other one leaves one row. -/
def Ledger.step (l : Ledger) (item : AutomationRule × ℕ) : Ledger :=
  let after := item.1.effect l.triage
  if lands cfg (env item.2) db issue.platform item.1 = true ∧ after ≠ l.triage then
    { triage := after
      rows := l.rows ++ [(item.1.audit issue.id l.triage after).toEvent (env item.2).now]
      events := l.events ++ (item.1.event issue.id issue.platform l.triage after).toList }
  else l

/-- The rows of one field chain from what the issue started with to what it has. -/
structure Ledger.Chained (l : Ledger) : Prop where
  priorities : Records AuditEvent.oldValue AuditEvent.newValue (some issue.priority.value)
    (fieldRows issue.id "priority" l.rows) (some l.triage.priority.value)
  assignees : Records AuditEvent.oldValue AuditEvent.newValue issue.assignee
    (fieldRows issue.id "assignee" l.rows) l.triage.assignee

/-- What is stored, written and emitted is as the ledger has it. -/
structure Agrees (run : AutomationRun) (l : Ledger) : Prop where
  stored : run.db.triage issue.id = some l.triage
  rows : run.db.auditEvents = db.auditEvents ++ l.rows
  events : run.events = l.events
  chained : l.Chained issue

end

def addedLabel (cfg : Config) (env : ℕ → Env) (db : Db) (issue : Issue) (item : AutomationRule × ℕ) : Option Uuid :=
  if item.1.action = .addLabel ∧ lands cfg (env item.2) db issue.platform item.1 = true then some item.1.actionValue
  else none

/-- The decisions of the ledger are the rules that do not fail, applied in their order. -/
theorem ledger_triage (cfg : Config) (env : ℕ → Env) (db : Db) (issue : Issue) (l : Ledger)
    (items : List (AutomationRule × ℕ)) :
    (exec (Ledger.step cfg env db issue) l items).triage =
      (items.filter fun item => lands cfg (env item.2) db issue.platform item.1).foldl
        (fun t item => item.1.effect t) l.triage := by
  induction items generalizing l with
  | nil => rfl
  | cons item items ih =>
    rw [exec_cons, ih]
    cases hlands : lands cfg (env item.2) db issue.platform item.1 with
    | false => simp [Ledger.step, hlands]
    | true =>
      rw [List.filter_cons_of_pos (by simpa using hlands), List.foldl_cons]
      by_cases hsame : item.1.effect l.triage = l.triage
      · simp [Ledger.step, hsame]
      · simp [Ledger.step, hlands, hsame]

section Steps

variable {cfg : Config} {env : ℕ → Env} {db : Db} {issue : Issue} {run : AutomationRun} {l : Ledger}
  {item : AutomationRule × ℕ}

/-- The copy in memory is in step with the database, and the tables the checks read are as they were. -/
structure InStep (db : Db) (issue : Issue) (run : AutomationRun) (l : Ledger) : Prop where
  id : run.issue.id = issue.id
  platform : run.issue.platform = issue.platform
  priority : run.issue.priority = l.triage.priority
  assignee : run.issue.assignee = some l.triage.assignee
  stored : run.db.triage issue.id = some l.triage
  staffUsers : run.db.staffUsers = db.staffUsers
  roles : run.db.roles = db.roles
  labels : run.db.labels = db.labels

def recorded (now : Time) (i : AuditInput) (db : Db) : Db := { db with auditEvents := db.auditEvents ++ [i.toEvent now] }

theorem body_recorded (env : Env) (p : Statement Db) (i : AuditInput) (s : Db) :
    body env.statement [p, AuditService.record env.now i] s =
      if env.commits = true then (p s).map (recorded env.now i) else none := by
  cases h0 : env.statement 0 <;> cases h1 : env.statement 1 <;> cases hp : p s <;>
    simp [body, Env.commits, AuditService.record, recorded, h0, h1, hp]

theorem assertAssignable_congr {db' : Db} (hstaff : db'.staffUsers = db.staffUsers) (hroles : db'.roles = db.roles)
    (cfg : Config) (staffUserId platformId : Uuid) :
    assertAssignable cfg db' staffUserId platformId = assertAssignable cfg db staffUserId platformId := by
  simp only [assertAssignable, IssuesService.assignable, loadRoles, hstaff, hroles]

def actedPriority (now : Time) (run : AutomationRun) (target : Priority) : AutomationRun where
  issue := { run.issue with priority := target }
  db := recorded now (priorityAudit run.issue target) { run.db with
    issues := run.db.issues.update run.issue.id (Issue.withPriority now target) (Issue.withPriority_id now target) }
  events := run.events ++
    [.priorityChanged run.issue.id run.issue.platform run.issue.priority target systemActor]

def actedAssignee (now : Time) (run : AutomationRun) (target : Uuid) : AutomationRun where
  issue := { run.issue with assignee := some (some target) }
  db := recorded now (assignedAudit run.issue target) { run.db with
    issues := run.db.issues.update run.issue.id (Issue.withAssignee now target) (Issue.withAssignee_id now target) }
  events := run.events ++ [.assigned run.issue.id run.issue.platform (some target) systemActor]

def labelled (il : IssueLabel) (db : Db) : Db :=
  if il ∈ db.issueLabels then db else { db with issueLabels := db.issueLabels ++ [il] }

def actedLabel (now : Time) (run : AutomationRun) (label : Uuid) : AutomationRun :=
  { run with db := recorded now (labelAudit run.issue label) (labelled ⟨run.issue.id, label⟩ run.db) }

variable {rule : AutomationRule} {k : ℕ}

theorem ruleStep_setPriority (cfg : Config) (env : ℕ → Env) (run : AutomationRun) (k : ℕ) (haction : rule.action = .setPriority) :
    ruleStep cfg env run (rule, k) =
    match Priority.ofValue rule.actionValue with
    | none => run
    | some target =>
      if (env k).commits = true ∧ target ≠ run.issue.priority then actedPriority (env k).now run target else run := by
  cases hvalue : Priority.ofValue rule.actionValue with
  | none =>
    have hne : run.issue.priority.value ≠ rule.actionValue := by
      intro he
      rw [← he, Priority.ofValue_value] at hvalue
      cases hvalue
    simp [ruleStep, applyAction, haction, hvalue, hne]
  | some target =>
    have hkeep : run.issue.priority.value = rule.actionValue ↔ run.issue.priority = target := by
      rw [← Priority.value_of_ofValue hvalue, Priority.value_inj]
    simp only [ruleStep, applyAction, haction, hvalue, hkeep, body_recorded]
    by_cases hsame : run.issue.priority = target
    · simp [hsame]
    · cases hcommits : (env k).commits <;> simp [hsame, Ne.symm hsame, updatePriority, actedPriority]

theorem ruleStep_assign (cfg : Config) (env : ℕ → Env) (run : AutomationRun) (k : ℕ) (haction : rule.action = .assign) :
    ruleStep cfg env run (rule, k) =
    if (env k).read = false ∧ (assertAssignable cfg run.db rule.actionValue run.issue.platform).isOk = true ∧
        (env k).commits = true ∧ run.issue.assignee.getD none ≠ some rule.actionValue
    then actedAssignee (env k).now run rule.actionValue else run := by
  simp only [ruleStep, applyAction, haction, body_recorded]
  by_cases hsame : run.issue.assignee.getD none = some rule.actionValue
  · simp [hsame]
  · cases hread : (env k).read with
    | true => simp [hsame]
    | false =>
      cases hassignable : assertAssignable cfg run.db rule.actionValue run.issue.platform with
      | error e => simp [hsame, Except.isOk, Except.toBool]
      | ok _ =>
        cases hcommits : (env k).commits <;>
          simp [hsame, Except.isOk, Except.toBool, updateAssignee, actedAssignee]

theorem ruleStep_addLabel (cfg : Config) (env : ℕ → Env) (run : AutomationRun) (k : ℕ) (haction : rule.action = .addLabel) :
    ruleStep cfg env run (rule, k) =
    if (run.db.labels.findOne rule.actionValue).isSome = true ∧ (env k).commits = true
    then actedLabel (env k).now run rule.actionValue else run := by
  simp only [ruleStep, applyAction, haction, body_recorded, IssueLabel.insertOrIgnore]
  cases hlabel : run.db.labels.findOne rule.actionValue with
  | none => cases (env k).commits <;> simp
  | some label =>
    cases hcommits : (env k).commits with
    | false => simp
    | true =>
      by_cases hmem : (⟨run.issue.id, rule.actionValue⟩ : IssueLabel) ∈ run.db.issueLabels
      · simp [hmem, actedLabel, labelled]
      · simp [hmem, actedLabel, labelled]

variable {now : Time} {t : Triage} {issueId : Uuid}

theorem triage_eq_some : db.triage issueId = some t ↔ ∃ row, db.issues.findOne issueId = some row ∧ row.id = issueId ∧
    t = ⟨row.priority, row.assignee, db.labelsOf issueId⟩ := by
  rw [Db.triage, Option.map_eq_some_iff]
  constructor
  · rintro ⟨row, hrow, rfl⟩
    have hid := Table.findOne_key hrow
    exact ⟨row, hrow, hid, by rw [Issue.triage, hid]⟩
  · rintro ⟨row, hrow, hid, rfl⟩
    exact ⟨row, hrow, by rw [Issue.triage, hid]⟩

theorem triage_actedPriority (hid : run.issue.id = issueId) (h : run.db.triage issueId = some t) (target : Priority) :
    (actedPriority now run target).db.triage issueId = some { t with priority := target } := by
  obtain ⟨row, hrow, hrowId, rfl⟩ := triage_eq_some.mp h
  refine triage_eq_some.mpr ⟨row.withPriority now target, ?_, hrowId, rfl⟩
  simp only [actedPriority, recorded, hid, Table.findOne_update_self, hrow, Option.map_some]

theorem triage_actedAssignee (hid : run.issue.id = issueId) (h : run.db.triage issueId = some t) (target : Uuid) :
    (actedAssignee now run target).db.triage issueId = some { t with assignee := some target } := by
  obtain ⟨row, hrow, hrowId, rfl⟩ := triage_eq_some.mp h
  refine triage_eq_some.mpr ⟨row.withAssignee now target, ?_, hrowId, rfl⟩
  simp only [actedAssignee, recorded, hid, Table.findOne_update_self, hrow, Option.map_some]

theorem labelsOf_labelled (db : Db) (issueId label : Uuid) :
    (labelled ⟨issueId, label⟩ db).labelsOf issueId = insert label (db.labelsOf issueId) := by
  unfold labelled
  split_ifs with hmem
  · have hlabel : label ∈ db.labelsOf issueId := by
      simp only [Db.labelsOf, List.mem_toFinset, List.mem_map, List.mem_filter]
      exact ⟨_, ⟨hmem, by simp⟩, rfl⟩
    rw [Finset.insert_eq_of_mem hlabel]
  · have hadded : (db.issueLabels ++ [IssueLabel.mk issueId label]).filter (fun il => il.issue = issueId) =
        db.issueLabels.filter (fun il => il.issue = issueId) ++ [IssueLabel.mk issueId label] := by
      simp [List.filter_append]
    ext other
    simp only [Db.labelsOf, hadded, List.map_append, List.map_cons, List.map_nil, List.mem_toFinset, List.mem_append,
      List.mem_singleton, Finset.mem_insert]
    exact or_comm

theorem labelled_others (il : IssueLabel) (db : Db) : (labelled il db).issues = db.issues ∧
    (labelled il db).staffUsers = db.staffUsers ∧ (labelled il db).roles = db.roles ∧
    (labelled il db).labels = db.labels ∧ (labelled il db).auditEvents = db.auditEvents := by
  unfold labelled
  split_ifs <;> exact ⟨rfl, rfl, rfl, rfl, rfl⟩

theorem triage_actedLabel (hid : run.issue.id = issueId) (h : run.db.triage issueId = some t) (label : Uuid) :
    (actedLabel now run label).db.triage issueId = some { t with labels := insert label t.labels } := by
  obtain ⟨row, hrow, hrowId, rfl⟩ := triage_eq_some.mp h
  refine triage_eq_some.mpr ⟨row, ?_, hrowId, ?_⟩
  · rw [← hrow]
    exact congrArg (Table.findOne · issueId) (labelled_others _ _).1
  · rw [← labelsOf_labelled]
    subst hid
    rfl

inductive Stepped (cfg : Config) (env : ℕ → Env) (db : Db) (issue : Issue) (run : AutomationRun) (l : Ledger)
    (item : AutomationRule × ℕ) : Prop
  | idle (run_eq : ruleStep cfg env run item = run) (ledger_eq : l.step cfg env db issue item = l)
      (added : addedLabel cfg env db issue item = none)
  | priority (target : Priority) (run_eq : ruleStep cfg env run item = actedPriority (env item.2).now run target)
      (ledger_eq : l.step cfg env db issue item = ⟨{ l.triage with priority := target },
        l.rows ++ [(priorityAudit run.issue target).toEvent (env item.2).now],
        l.events ++ [.priorityChanged issue.id issue.platform l.triage.priority target systemActor]⟩)
      (added : addedLabel cfg env db issue item = none)
  | assignee (target : Uuid) (run_eq : ruleStep cfg env run item = actedAssignee (env item.2).now run target)
      (ledger_eq : l.step cfg env db issue item = ⟨{ l.triage with assignee := some target },
        l.rows ++ [(assignedAudit run.issue target).toEvent (env item.2).now],
        l.events ++ [.assigned issue.id issue.platform (some target) systemActor]⟩)
      (added : addedLabel cfg env db issue item = none)
  | label (label : Uuid) (run_eq : ruleStep cfg env run item = actedLabel (env item.2).now run label)
      (ledger_eq : l.step cfg env db issue item = if label ∈ l.triage.labels then l else
        ⟨{ l.triage with labels := insert label l.triage.labels },
          l.rows ++ [(labelAudit run.issue label).toEvent (env item.2).now], l.events⟩)
      (added : addedLabel cfg env db issue item = some label)

theorem stepped_setPriority (h : InStep db issue run l) (haction : rule.action = .setPriority) :
    Stepped cfg env db issue run l (rule, k) := by
  have hadded : addedLabel cfg env db issue (rule, k) = none := by simp [addedLabel, haction]
  have hrun := ruleStep_setPriority cfg env run k haction
  cases hvalue : Priority.ofValue rule.actionValue with
  | none =>
    rw [hvalue] at hrun
    exact .idle hrun (by simp [Ledger.step, lands, haction, hvalue]) hadded
  | some target =>
    simp only [hvalue, h.priority] at hrun
    have heffect : rule.effect l.triage = { l.triage with priority := target } := by
      simp [AutomationRule.effect, haction, hvalue]
    by_cases hacts : (env k).commits = true ∧ target ≠ l.triage.priority
    · rw [if_pos hacts] at hrun
      refine .priority target hrun ?_ hadded
      have hne : ({ l.triage with priority := target } : Triage) ≠ l.triage :=
        fun he => hacts.2 (congrArg Triage.priority he)
      simp [Ledger.step, lands, haction, hvalue, hacts.1, heffect, hne, AutomationRule.audit, AutomationRule.event,
        priorityAudit, h.id, h.priority]
    · rw [if_neg hacts] at hrun
      refine .idle hrun ?_ hadded
      simp only [Ledger.step, lands, haction, hvalue, heffect]
      refine if_neg fun hboth => hacts ⟨by simpa using hboth.1, fun he => hboth.2 ?_⟩
      rw [he]

theorem stepped_assign (h : InStep db issue run l) (haction : rule.action = .assign) :
    Stepped cfg env db issue run l (rule, k) := by
  have hadded : addedLabel cfg env db issue (rule, k) = none := by simp [addedLabel, haction]
  have hrun := ruleStep_assign cfg env run k haction
  have heffect : rule.effect l.triage = { l.triage with assignee := some rule.actionValue } := by
    simp [AutomationRule.effect, haction]
  rw [h.platform, h.assignee, Option.getD_some, assertAssignable_congr h.staffUsers h.roles] at hrun
  by_cases hacts : (env k).read = false ∧ (assertAssignable cfg db rule.actionValue issue.platform).isOk = true ∧
      (env k).commits = true ∧ l.triage.assignee ≠ some rule.actionValue
  · rw [if_pos hacts] at hrun
    obtain ⟨hread, hassignable, hcommits, hmoves⟩ := hacts
    refine .assignee rule.actionValue hrun ?_ hadded
    have hne : ({ l.triage with assignee := some rule.actionValue } : Triage) ≠ l.triage :=
      fun he => hmoves (congrArg Triage.assignee he).symm
    simp [Ledger.step, lands, haction, hread, hassignable, hcommits, heffect, hne, AutomationRule.audit,
      AutomationRule.event, assignedAudit, h.id, h.assignee]
  · rw [if_neg hacts] at hrun
    refine .idle hrun ?_ hadded
    simp only [Ledger.step, lands, haction, heffect, Bool.and_eq_true, Bool.not_eq_true']
    refine if_neg fun hboth => hacts ⟨hboth.1.1.1, hboth.1.1.2, hboth.1.2, fun he => hboth.2 ?_⟩
    rw [← he]

theorem stepped_addLabel (h : InStep db issue run l) (haction : rule.action = .addLabel) :
    Stepped cfg env db issue run l (rule, k) := by
  have hrun := ruleStep_addLabel cfg env run k haction
  have heffect : rule.effect l.triage = { l.triage with labels := insert rule.actionValue l.triage.labels } := by
    simp [AutomationRule.effect, haction]
  rw [h.labels] at hrun
  by_cases hacts : (db.labels.findOne rule.actionValue).isSome = true ∧ (env k).commits = true
  · rw [if_pos hacts] at hrun
    refine .label rule.actionValue hrun ?_ (by simp [addedLabel, lands, haction, hacts])
    by_cases hmem : rule.actionValue ∈ l.triage.labels
    · simp [Ledger.step, heffect, hmem, Finset.insert_eq_of_mem hmem]
    · have hne : ({ l.triage with labels := insert rule.actionValue l.triage.labels } : Triage) ≠ l.triage := by
        intro he
        have hlabels := congrArg Triage.labels he
        exact hmem (hlabels ▸ Finset.mem_insert_self _ _)
      simp [Ledger.step, lands, haction, hacts, heffect, hmem, hne, AutomationRule.audit, AutomationRule.event,
        labelAudit, h.id]
  · rw [if_neg hacts] at hrun
    have hlands : lands cfg (env k) db issue.platform rule = false := by
      simpa [lands, haction] using hacts
    exact .idle hrun (by simp [Ledger.step, hlands]) (by simp [addedLabel, hlands])

theorem stepped (cfg : Config) (env : ℕ → Env) (h : InStep db issue run l) (item : AutomationRule × ℕ) :
    Stepped cfg env db issue run l item := by
  obtain ⟨rule, k⟩ := item
  cases haction : rule.action with
  | setPriority => exact stepped_setPriority h haction
  | assign => exact stepped_assign h haction
  | addLabel => exact stepped_addLabel h haction

theorem InStep.step (h : InStep db issue run l) (item : AutomationRule × ℕ) :
    InStep db issue (ruleStep cfg env run item) (l.step cfg env db issue item) := by
  rcases stepped cfg env h item with ⟨hrun, hledger, _⟩ | ⟨target, hrun, hledger, _⟩ |
    ⟨target, hrun, hledger, _⟩ | ⟨label, hrun, hledger, _⟩
  · rwa [hrun, hledger]
  · rw [hrun, hledger]
    exact { h with priority := rfl, stored := triage_actedPriority h.id h.stored target }
  · rw [hrun, hledger]
    exact { h with assignee := rfl, stored := triage_actedAssignee h.id h.stored target }
  · rw [hrun, hledger]
    obtain ⟨_, hstaff, hroles, hlabels, _⟩ := labelled_others ⟨run.issue.id, label⟩ run.db
    have hstored : (actedLabel (env item.2).now run label).db.triage issue.id = _ := triage_actedLabel h.id h.stored label
    split_ifs with hmem
    · rw [Finset.insert_eq_of_mem hmem] at hstored
      exact { h with
        stored := hstored, staffUsers := hstaff.trans h.staffUsers, roles := hroles.trans h.roles
        labels := hlabels.trans h.labels }
    · exact { h with
        stored := hstored, staffUsers := hstaff.trans h.staffUsers, roles := hroles.trans h.roles
        labels := hlabels.trans h.labels }

theorem InStep.start (h : db.issues.findOne issue.id = some issue) :
    InStep db issue ⟨issue.toEntity { assignee := true }, db, []⟩ ⟨issue.triage db, [], []⟩ :=
  ⟨rfl, rfl, rfl, rfl, by rw [Db.triage, h]; rfl, rfl, rfl, rfl⟩

theorem Chained.append {e : AuditEvent} {after : Triage} (h : l.Chained issue)
    (hpriority : Records AuditEvent.oldValue AuditEvent.newValue (some l.triage.priority.value)
      (fieldRows issue.id "priority" [e]) (some after.priority.value))
    (hassignee : Records AuditEvent.oldValue AuditEvent.newValue l.triage.assignee
      (fieldRows issue.id "assignee" [e]) after.assignee) (events : List IssueEvent) :
    Ledger.Chained issue ⟨after, l.rows ++ [e], events⟩ := by
  constructor
  · rw [fieldRows_append]
    exact h.priorities.append hpriority
  · rw [fieldRows_append]
    exact h.assignees.append hassignee

theorem Chained.priority {e : AuditEvent} {target : Priority} (h : l.Chained issue) (hissue : e.issue = some issue.id)
    (hfield : e.field = some "priority") (hold : e.oldValue = some l.triage.priority.value)
    (hnew : e.newValue = some target.value) (events : List IssueEvent) :
    Ledger.Chained issue ⟨{ l.triage with priority := target }, l.rows ++ [e], events⟩ := by
  apply Chained.append h
  · rw [fieldRows_singleton, if_pos (by simp [AuditEvent.on, hissue, hfield])]
    exact hnew ▸ Records.single hold
  · rw [fieldRows_singleton, if_neg (by simp [AuditEvent.on, hfield])]
    exact Records.nil _

theorem Chained.assignee {e : AuditEvent} {target : Uuid} (h : l.Chained issue) (hissue : e.issue = some issue.id)
    (hfield : e.field = some "assignee") (hold : e.oldValue = l.triage.assignee) (hnew : e.newValue = some target)
    (events : List IssueEvent) :
    Ledger.Chained issue ⟨{ l.triage with assignee := some target }, l.rows ++ [e], events⟩ := by
  apply Chained.append h
  · rw [fieldRows_singleton, if_neg (by simp [AuditEvent.on, hfield])]
    exact Records.nil _
  · rw [fieldRows_singleton, if_pos (by simp [AuditEvent.on, hissue, hfield])]
    exact hnew ▸ Records.single hold

theorem Chained.label {e : AuditEvent} (h : l.Chained issue) (hfield : e.field = some "label") (labels : Finset Uuid)
    (events : List IssueEvent) :
    Ledger.Chained issue ⟨{ l.triage with labels := labels }, l.rows ++ [e], events⟩ := by
  apply Chained.append h
  · rw [fieldRows_singleton, if_neg (by simp [AuditEvent.on, hfield])]
    exact Records.nil _
  · rw [fieldRows_singleton, if_neg (by simp [AuditEvent.on, hfield])]
    exact Records.nil _

end Steps

theorem applyRules_eq {db : Db} {issueId : Uuid} {issue : Issue} (hissue : db.issues.findOne issueId = some issue)
    (cfg : Config) (env : ℕ → Env) (rules : List AutomationRule) :
    applyRules cfg env issueId rules db =
      some (exec (ruleStep cfg env) ⟨issue.toEntity { assignee := true }, db, []⟩ rules.zipIdx) := by
  rw [applyRules, hissue]
  rfl

end AutomationService

namespace Sample

def labelledIssue : Issue := ReporterService.newIssue 0 context ⟨"It does not load", none⟩ "reporter" ⟨"A", "reporter", "A"⟩

def alreadyLabelled : Db :=
  { Db.empty with
    issues := ⟨[labelledIssue], by decide⟩
    labels := ⟨[⟨"urgent", "P", "urgent", "red"⟩], by decide⟩
    issueLabels := [⟨"A", "urgent"⟩] }

end Sample

end Cimp
