import Cimp.Auth.Grants
import Cimp.Issues.Operation
import Cimp.Issues.Related
import Cimp.Lib.Ownership

namespace Cimp

open Execution Ownership

/-- Whom a generated id was given to: a row of a platform, or a staff member. -/
inductive Owner
  | platform (id : Uuid)
  | staff
deriving DecidableEq, Repr

structure CreateAutomationRuleDto where
  trigger : AutomationTrigger
  triggerStatus : Option IssueStatus
  action : AutomationAction
  actionValue : String
  enabled : Option Bool
deriving DecidableEq, Repr

structure UpdateAutomationRuleDto where
  enabled : Option Bool
  trigger : Option AutomationTrigger
  triggerStatus : Option (Option IssueStatus)
  action : Option AutomationAction
  actionValue : Option String
deriving DecidableEq, Repr

namespace AutomationService

def assertAccess (staff : AuthenticatedStaff) (platformId : Uuid) : Bool :=
  ScopeService.canAccessPlatform staff platformId staffWriteRoles

def assertActionValue (cfg : Config) (db : Db) (platformId : Uuid) (action : AutomationAction) (actionValue : String) :
    Except HttpException Unit :=
  match action with
  | .setPriority =>
    require (Priority.ofValue actionValue).isSome (.badRequest ("actionValue for SET_PRIORITY must be one of: "
      ++ ", ".intercalate (Priority.values.map Priority.value) ++ "."))
  | .assign => do
    let _ ← assertAssignable cfg db actionValue platformId
    return ()
  | .addLabel => do
    require (cfg.isUuid actionValue) (.badRequest "actionValue for ADD_LABEL must be a label id.")
    match (db.labels.findOne actionValue).filter fun l => l.platform = platformId with
    | none => .error (.badRequest "Label not found on this platform.")
    | some _ => .ok ()

def newRule (platformId : Uuid) (dto : CreateAutomationRuleDto) (id : Uuid) : AutomationRule where
  id := id
  platform := platformId
  enabled := dto.enabled.getD true
  trigger := dto.trigger
  triggerStatus := dto.triggerStatus
  action := dto.action
  actionValue := dto.actionValue

/-- The rule as `update` assigns it, unless the pair that it ends up with is refused. -/
def updated (cfg : Config) (db : Db) (rule : AutomationRule) (dto : UpdateAutomationRuleDto) :
    Except HttpException AutomationRule := do
  let action := dto.action.getD rule.action
  let actionValue := dto.actionValue.getD rule.actionValue
  if dto.action.isSome || dto.actionValue.isSome then assertActionValue cfg db rule.platform action actionValue
  return { rule with
    enabled := dto.enabled.getD rule.enabled
    trigger := dto.trigger.getD rule.trigger
    triggerStatus := dto.triggerStatus.getD rule.triggerStatus
    action := action
    actionValue := actionValue }

/-- The `UPDATE` of `save`: the columns in which the entity differs from the row that `save` has selected. -/
def changedColumns (selected rule row : AutomationRule) : AutomationRule :=
  { row with
    enabled := if rule.enabled = selected.enabled then row.enabled else rule.enabled
    trigger := if rule.trigger = selected.trigger then row.trigger else rule.trigger
    triggerStatus := if rule.triggerStatus = selected.triggerStatus then row.triggerStatus else rule.triggerStatus
    action := if rule.action = selected.action then row.action else rule.action
    actionValue := if rule.actionValue = selected.actionValue then row.actionValue else rule.actionValue }

end AutomationService

namespace LabelsService

def newLabel (platformId : Uuid) (name : String) (color : Option String) (id : Uuid) : Label :=
  ⟨id, platformId, trim name, color.getD "#6b7280"⟩

def insert (label : Label) : Statement Db := fun db =>
  if (db.platforms.findOne label.platform).isNone then none
  else if db.labels.rows.any fun l => l.platform = label.platform && l.name = label.name then none
  else (db.labels.insert label).map fun labels => { db with labels }

/-- `DELETE` of a label row, which takes the label off its issues. -/
def remove (id : Uuid) : Statement Db := fun db =>
  some { db with labels := db.labels.delete id, issueLabels := db.issueLabels.filter fun l => l.label ≠ id }

end LabelsService

/-- What is left of a request, of a listener or of a `save`, with what it has read so far. -/
inductive TenantJob
  | addLabel (issue : Issue) (labelId : Uuid)
  | attachLabel (issue : Issue) (label : Label)
  | removeLabel (label : Label)
  | linkTarget (source : Issue) (dto : CreateIssueLinkDto) (staff : AuthenticatedStaff)
  | insertLink (source target : Issue) (type : IssueLinkType) (staff : AuthenticatedStaff)
  | insertRule (rule : AutomationRule)
  | assignRule (rule : AutomationRule) (dto : UpdateAutomationRuleDto)
  | saveRule (rule : AutomationRule)
  | updateRule (selected rule : AutomationRule)
  | removeRule (rule : AutomationRule)
  | applyRules (issueId : Uuid) (rules : List AutomationRule)
  | applyAction (issue : IssueEntity) (rules : List AutomationRule)
  | commit (write : Write)

/-- The labels, links, duplicates and automation rules of all platforms, under concurrent requests. -/
structure Tenancy where
  db : Db
  rules : Table AutomationRule.id
  owner : Owners Uuid Owner
  jobs : List TenantJob

/-- The rest of what writes to an issue: the sweeps, the Jira key, the public title. -/
structure IssueEdit where
  issue : Uuid
  apply : Issue → Issue
  id : ∀ row, (apply row).id = row.id
  platform : ∀ row, (apply row).platform = row.platform
  duplicateOf : ∀ row, (apply row).duplicateOf = row.duplicateOf

namespace Tenancy

inductive Action
  | createPlatform (platform : Platform)
  | deletePlatform (id : Uuid)
  | createStaff (user : StaffUser)
  | administer (staffUsers : Table StaffUser.id) (roles : List UserPlatformRole)
  | createLabel (staff : AuthenticatedStaff) (platformId : Uuid) (name : String) (color : Option String) (id : Uuid)
  | deleteLabel (staff : AuthenticatedStaff) (platformId labelId : Uuid)
  | addLabel (issueId labelId : Uuid)
  | removeFromIssue (issueId labelId : Uuid)
  | createLink (staff : AuthenticatedStaff) (issueId : UuidText) (dto : CreateIssueLinkDto)
  | removeLink (issueId linkId : Uuid)
  | createRule (staff : AuthenticatedStaff) (platformId : Uuid) (dto : CreateAutomationRuleDto) (id : Uuid)
  | updateRule (staff : AuthenticatedStaff) (platformId ruleId : Uuid) (dto : UpdateAutomationRuleDto)
  | removeRule (staff : AuthenticatedStaff) (platformId ruleId : Uuid)
  | issueCreated (issueId : Uuid)
  | statusChanged (issueId : Uuid) (target : IssueStatus)
  | intake (env : Env) (ctx : HandoffContext) (dto : CreateIssueDto) (stored : List StoredFile) (ids : IntakeIds)
  | request (now : Time) (r : Request)
  | edit (e : IssueEdit)
  | proceed (job : ℕ) (env : Env) (linkId : Uuid)

def start (platforms : Table Platform.id) : Tenancy := ⟨{ Db.empty with platforms }, .empty, fun _ => none, []⟩

def push (s : Tenancy) (job : TenantJob) : Tenancy := { s with jobs := s.jobs ++ [job] }

def give (s : Tenancy) (id : Uuid) (owner : Owner) : Tenancy :=
  { s with owner := Function.update s.owner id (some owner) }

/-- `gen_random_uuid()` gives no id twice, and none that reads as a priority. -/
def Fresh (s : Tenancy) (id : Uuid) : Prop := s.owner id = none ∧ Priority.ofValue id = none

instance (s : Tenancy) (id : Uuid) : Decidable (s.Fresh id) := inferInstanceAs (Decidable (_ ∧ _))

def run (s : Tenancy) (env : Env) (statements : List (Statement Db)) : Tenancy :=
  { s with db := Transaction.commit env.statement statements s.db }

def insertRule (s : Tenancy) (rule : AutomationRule) : Tenancy :=
  if (s.db.platforms.findOne rule.platform).isNone then s
  else match s.rules.insert rule with
    | none => s
    | some rules => { s with rules }

def perform (cfg : Config) (s : Tenancy) (env : Env) (linkId : Uuid) : TenantJob → Tenancy
  | .addLabel issue labelId =>
    match s.db.labels.findOne labelId with
    | none => s
    | some label => if label.platform ≠ issue.platform then s else s.push (.attachLabel issue label)
  -- a label that is there already stays, as the unique violation is caught
  | .attachLabel issue label => s.run env [IssueLabel.insertOrIgnore ⟨issue.id, label.id⟩]
  | .removeLabel label => s.run env [LabelsService.remove label.id]
  | .linkTarget source dto staff =>
    match s.db.issues.findOne dto.targetIssueId.uuid with
    | none => s
    | some target =>
      if source.platform ≠ target.platform then s else s.push (.insertLink source target dto.type staff)
  | .insertLink source target type staff =>
    s.run env [IssueLink.insertOrIgnore ⟨linkId, source.id, target.id, type, staff.id, env.now⟩]
  | .insertRule rule => s.insertRule rule
  | .assignRule rule dto =>
    match AutomationService.updated cfg s.db rule dto with
    | .error _ => s
    | .ok rule => s.push (.saveRule rule)
  | .saveRule rule =>
    match s.rules.findOne rule.id with
    -- `save` inserts an entity that it does not find
    | none => s.push (.insertRule rule)
    | some selected => s.push (.updateRule selected rule)
  | .updateRule selected rule =>
    { s with rules := s.rules.update rule.id (AutomationService.changedColumns selected rule) fun _ => rfl }
  | .removeRule rule => { s with rules := s.rules.delete rule.id }
  | .applyRules issueId rules =>
    match s.db.issues.findOne issueId with
    | none => s
    | some row => s.push (.applyAction (row.toEntity { assignee := true }) rules)
  | .applyAction _ [] => s
  | .applyAction issue (rule :: rules) =>
    match AutomationService.applyAction cfg env rule ⟨issue, s.db, []⟩ with
    | .error _ => s.push (.applyAction issue rules)
    | .ok run => { s with db := run.db }.push (.applyAction run.issue rules)
  | .commit write => { s with db := write.commit env s.db }

def step (cfg : Config) (s : Tenancy) : Action → Tenancy
  | .createPlatform platform =>
    match s.db.platforms.insert platform with
    | none => s
    | some platforms => { s with db := { s.db with platforms } }
  | .deletePlatform id =>
    match Platform.remove id s.db with
    | none => s
    | some db => { s with db, rules := s.rules.filter fun r => r.platform ≠ id }
  | .createStaff user =>
    if s.Fresh user.id then
      match s.db.staffUsers.insert user with
      | none => s
      | some staffUsers => { s with db := { s.db with staffUsers } }.give user.id .staff
    else s
  | .administer staffUsers roles =>
    if ∀ u ∈ staffUsers.rows, s.owner u.id = some .staff then { s with db := { s.db with staffUsers, roles } } else s
  | .createLabel staff platformId name color id =>
    if ScopeService.canAccessPlatform staff platformId staffWriteRoles && s.Fresh id then
      match LabelsService.insert (LabelsService.newLabel platformId name color id) s.db with
      | none => s
      | some db => { s with db }.give id (.platform platformId)
    else s
  | .deleteLabel staff platformId labelId =>
    if ScopeService.canAccessPlatform staff platformId staffWriteRoles then
      match (s.db.labels.findOne labelId).filter fun l => l.platform = platformId with
      | none => s
      | some label => s.push (.removeLabel label)
    else s
  | .addLabel issueId labelId =>
    match s.db.issues.findOne issueId with
    | none => s
    | some issue => s.push (.addLabel issue labelId)
  | .removeFromIssue issueId labelId =>
    { s with db := { s.db with issueLabels := s.db.issueLabels.filter fun l => l ≠ ⟨issueId, labelId⟩ } }
  | .createLink staff issueId dto =>
    if issueId.text = dto.targetIssueId.text then s
    else match s.db.issues.findOne issueId.uuid with
      | none => s
      | some source => s.push (.linkTarget source dto staff)
  | .removeLink issueId linkId =>
    { s with db := { s.db with issueLinks := s.db.issueLinks.filter fun l =>
        !(l.id = linkId && (l.sourceIssue = issueId || l.targetIssue = issueId)) } }
  | .createRule staff platformId dto id =>
    if AutomationService.assertAccess staff platformId && s.Fresh id then
      match AutomationService.assertActionValue cfg s.db platformId dto.action dto.actionValue with
      | .error _ => s
      | .ok _ => (s.give id (.platform platformId)).push (.insertRule (AutomationService.newRule platformId dto id))
    else s
  | .updateRule staff platformId ruleId dto =>
    if AutomationService.assertAccess staff platformId then
      match (s.rules.findOne ruleId).filter fun r => r.platform = platformId with
      | none => s
      | some rule => s.push (.assignRule rule dto)
    else s
  | .removeRule staff platformId ruleId =>
    if AutomationService.assertAccess staff platformId then
      match (s.rules.findOne ruleId).filter fun r => r.platform = platformId with
      | none => s
      | some rule => s.push (.removeRule rule)
    else s
  -- who emits an event takes the platform from the issue
  | .issueCreated issueId =>
    match s.db.issues.findOne issueId with
    | none => s
    | some issue => s.push (.applyRules issueId (AutomationService.rulesForCreated s.rules.rows issue.platform))
  | .statusChanged issueId target =>
    match s.db.issues.findOne issueId with
    | none => s
    | some issue =>
      s.push (.applyRules issueId (AutomationService.rulesForStatusChanged s.rules.rows issue.platform target))
  | .intake env ctx dto stored ids =>
    if s.Fresh ids.issue then
      { s with db := ReporterService.createIssue env ctx dto stored ids s.db }.give ids.issue (.platform ctx.platformId)
    else s
  | .request now r =>
    match r.load cfg now s.db with
    | .ok (some w) => s.push (.commit w)
    | _ => s
  | .edit e => { s with db := { s.db with issues := s.db.issues.update e.issue e.apply e.id } }
  | .proceed i env linkId =>
    match s.jobs[i]? with
    | none => s
    | some job => if env.read then { s with jobs := s.jobs.eraseIdx i }
      else { s with jobs := s.jobs.eraseIdx i }.perform cfg env linkId job

end Tenancy

def Issue.Housed (owner : Owners Uuid Owner) (i : Issue) : Prop :=
  owner i.id = some (.platform i.platform) ∧ ∀ root ∈ i.duplicateOf, Together owner i.id root

/-- Every row that a platform owns is recorded as its own, and no row ties two platforms. -/
structure Db.Housed (owner : Owners Uuid Owner) (db : Db) : Prop where
  issues : ∀ i ∈ db.issues.rows, i.Housed owner
  labels : ∀ l ∈ db.labels.rows, owner l.id = some (.platform l.platform) ∧ Priority.ofValue l.id = none
  staff : ∀ u ∈ db.staffUsers.rows, owner u.id = some .staff
  attached : ∀ l ∈ db.issueLabels, Together owner l.issue l.label ∧ (db.labels.findOne l.label).isSome
  linked : ∀ l ∈ db.issueLinks, Together owner l.sourceIssue l.targetIssue
  attachedOnce : db.issueLabels.Nodup
  linkedOnce : (db.issueLinks.map fun l => (l.sourceIssue, l.targetIssue, l.type)).Nodup

/-- What an action value was when it was checked. It need not go with the action: two requests that change one
rule at once can leave the action of one with the value of the other. -/
def AutomationRule.Apt (owner : Owners Uuid Owner) (r : AutomationRule) : Prop :=
  owner r.id = some (.platform r.platform) ∧
    (owner r.actionValue = some (.platform r.platform) ∨ owner r.actionValue = some .staff ∨
      (Priority.ofValue r.actionValue).isSome)

/-- A checked write stays on the platform of its issue. -/
structure Write.Housed (owner : Owners Uuid Owner) (w : Write) : Prop where
  issue : owner w.issue.id = some (.platform w.issue.platform)
  duplicateOf : ∀ root, w.issue.duplicateOf = some (some root) → Together owner w.issue.id root
  others : w.others = (fun _ => []) ∨ ∃ staff duplicate canonicalId ids,
    w.others = MergeService.others staff duplicate canonicalId ids ∧ Together owner duplicate.id canonicalId

def TenantJob.Housed (owner : Owners Uuid Owner) : TenantJob → Prop
  | .addLabel issue _ => owner issue.id = some (.platform issue.platform)
  | .attachLabel issue label => Together owner issue.id label.id
  | .removeLabel _ => True
  | .linkTarget source _ _ => owner source.id = some (.platform source.platform)
  | .insertLink source target _ _ => Together owner source.id target.id
  | .insertRule rule => rule.Apt owner
  | .assignRule rule _ => rule.Apt owner
  | .saveRule rule => rule.Apt owner
  | .updateRule selected rule => selected.id = rule.id ∧ rule.Apt owner
  | .removeRule _ => True
  | .applyRules issueId rules => ∀ r ∈ rules, r.Apt owner ∧ owner issueId = some (.platform r.platform)
  | .applyAction issue rules => owner issue.id = some (.platform issue.platform) ∧
      ∀ r ∈ rules, r.Apt owner ∧ owner issue.id = some (.platform r.platform)
  | .commit write => write.Housed owner

namespace Tenancy

structure Inv (s : Tenancy) : Prop where
  db : s.db.Housed s.owner
  rules : ∀ r ∈ s.rules.rows, r.Apt s.owner
  jobs : ∀ j ∈ s.jobs, j.Housed s.owner

end Tenancy

section Grows

variable {owner owner' : Owners Uuid Owner}

theorem Issue.Housed.grows {i : Issue} (hi : i.Housed owner) (hg : Grows owner owner') : i.Housed owner' :=
  ⟨hg _ _ hi.1, fun root hroot => (hi.2 root hroot).grows hg⟩

theorem Db.Housed.grows {db : Db} (hs : db.Housed owner) (hg : Grows owner owner') : db.Housed owner' where
  issues i hi := (hs.issues i hi).grows hg
  labels l hl := ⟨hg _ _ (hs.labels l hl).1, (hs.labels l hl).2⟩
  staff u hu := hg _ _ (hs.staff u hu)
  attached l hl := ⟨(hs.attached l hl).1.grows hg, (hs.attached l hl).2⟩
  linked l hl := (hs.linked l hl).grows hg
  attachedOnce := hs.attachedOnce
  linkedOnce := hs.linkedOnce

theorem AutomationRule.Apt.grows {r : AutomationRule} (hr : r.Apt owner) (hg : Grows owner owner') : r.Apt owner' := by
  obtain ⟨hid, hvalue⟩ := hr
  refine ⟨hg _ _ hid, ?_⟩
  rcases hvalue with hplatform | hstaff | hpriority
  · exact .inl (hg _ _ hplatform)
  · exact .inr (.inl (hg _ _ hstaff))
  · exact .inr (.inr hpriority)

theorem Write.Housed.grows {w : Write} (hw : w.Housed owner) (hg : Grows owner owner') : w.Housed owner' where
  issue := hg _ _ hw.issue
  duplicateOf root hroot := (hw.duplicateOf root hroot).grows hg
  others := by
    rcases hw.others with hnone | ⟨staff, duplicate, canonicalId, ids, hothers, htogether⟩
    · exact .inl hnone
    · exact .inr ⟨staff, duplicate, canonicalId, ids, hothers, htogether.grows hg⟩

theorem TenantJob.Housed.grows {j : TenantJob} (hj : j.Housed owner) (hg : Grows owner owner') : j.Housed owner' := by
  cases j with
  | addLabel issue labelId => exact hg _ _ hj
  | attachLabel issue label => exact Together.grows hj hg
  | removeLabel label => trivial
  | linkTarget source dto staff => exact hg _ _ hj
  | insertLink source target type staff => exact Together.grows hj hg
  | insertRule rule => exact AutomationRule.Apt.grows hj hg
  | assignRule rule dto => exact AutomationRule.Apt.grows hj hg
  | saveRule rule => exact AutomationRule.Apt.grows hj hg
  | updateRule selected rule => exact ⟨hj.1, hj.2.grows hg⟩
  | removeRule rule => trivial
  | applyRules issueId rules => exact fun r hr => ⟨(hj r hr).1.grows hg, hg _ _ (hj r hr).2⟩
  | applyAction issue rules => exact ⟨hg _ _ hj.1, fun r hr => ⟨(hj.2 r hr).1.grows hg, hg _ _ (hj.2 r hr).2⟩⟩
  | commit write => exact Write.Housed.grows hj hg

end Grows

namespace Db

/-- All but the issues of what `Housed` reads. -/
def fittings (db : Db) : Table Label.id × Table StaffUser.id × List IssueLabel × List IssueLink :=
  (db.labels, db.staffUsers, db.issueLabels, db.issueLinks)

variable {owner : Owners Uuid Owner} {db db' : Db}

theorem Housed.of_fittings (hs : db.Housed owner) (hissues : ∀ i ∈ db'.issues.rows, i.Housed owner)
    (h : db'.fittings = db.fittings) : db'.Housed owner := by
  simp only [fittings, Prod.mk.injEq] at h
  obtain ⟨hlabels, hstaff, hattached, hlinked⟩ := h
  constructor
  · exact hissues
  · exact hlabels ▸ hs.labels
  · exact hstaff ▸ hs.staff
  · rw [hattached, hlabels]
    exact hs.attached
  · exact hlinked ▸ hs.linked
  · exact hattached ▸ hs.attachedOnce
  · exact hlinked ▸ hs.linkedOnce

theorem Housed.findIssue (hs : db.Housed owner) {id : Uuid} {i : Issue} (h : db.issues.findOne id = some i) :
    i.Housed owner ∧ i.id = id :=
  ⟨hs.issues i (Table.mem_of_findOne h), Table.findOne_key h⟩

theorem Housed.findLabel (hs : db.Housed owner) {id : Uuid} {l : Label} (h : db.labels.findOne id = some l) :
    owner l.id = some (.platform l.platform) ∧ l.id = id :=
  ⟨(hs.labels l (Table.mem_of_findOne h)).1, Table.findOne_key h⟩

theorem Housed.updateIssues (hs : db.Housed owner) {id : Uuid} {f : Issue → Issue} (hf : ∀ i, (f i).id = i.id)
    (hkeep : ∀ i, i.Housed owner → i.id = id → (f i).Housed owner) :
    Housed owner { db with issues := db.issues.update id f hf } := by
  refine hs.of_fittings (fun i hi => ?_) rfl
  obtain ⟨row, hrow, rfl⟩ := List.mem_map.mp hi
  split
  · rename_i hid
    exact hkeep row (hs.issues row hrow) hid
  · exact hs.issues row hrow

theorem Housed.attach (hs : db.Housed owner) {l : IssueLabel} (htogether : Together owner l.issue l.label)
    (h : l.insertOrIgnore db = some db') : db'.Housed owner := by
  unfold IssueLabel.insertOrIgnore at h
  split at h
  · cases h
  · rename_i hlabel
    split at h
    · cases h
      exact hs
    · rename_i hnew
      cases h
      constructor
      · exact hs.issues
      · exact hs.labels
      · exact hs.staff
      · intro m hm
        rcases List.mem_append.mp hm with hold | hadded
        · exact hs.attached m hold
        · cases List.mem_singleton.mp hadded
          exact ⟨htogether, by simpa [Option.isSome_iff_ne_none] using hlabel⟩
      · exact hs.linked
      · exact List.nodup_append.mpr ⟨hs.attachedOnce, List.nodup_singleton l, fun a ha b hb => by
          rintro rfl
          exact hnew (List.mem_singleton.mp hb ▸ ha)⟩
      · exact hs.linkedOnce

theorem Housed.link (hs : db.Housed owner) {l : IssueLink} (htogether : Together owner l.sourceIssue l.targetIssue)
    (h : l.insertOrIgnore db = some db') : db'.Housed owner := by
  unfold IssueLink.insertOrIgnore at h
  split at h
  · cases h
    exact hs
  · rename_i hnew
    cases h
    constructor
    · exact hs.issues
    · exact hs.labels
    · exact hs.staff
    · exact hs.attached
    · intro m hm
      rcases List.mem_append.mp hm with hold | hadded
      · exact hs.linked m hold
      · cases List.mem_singleton.mp hadded
        exact htogether
    · exact hs.attachedOnce
    · rw [List.map_append, List.nodup_append]
      refine ⟨hs.linkedOnce, List.nodup_singleton _, fun a ha b hb => ?_⟩
      rintro rfl
      obtain ⟨m, hm, hsame⟩ := List.mem_map.mp ha
      rw [List.map_singleton, List.mem_singleton] at hb
      rw [hb, Prod.mk.injEq, Prod.mk.injEq] at hsame
      apply hnew
      simp only [List.any_eq_true, Bool.and_eq_true, decide_eq_true_eq]
      exact ⟨m, hm, ⟨hsame.1, hsame.2.1⟩, hsame.2.2⟩

theorem Housed.removeLabel (hs : db.Housed owner) {id : Uuid} (h : LabelsService.remove id db = some db') :
    db'.Housed owner := by
  cases h
  constructor
  · exact hs.issues
  · exact fun l hl => hs.labels l (List.mem_of_mem_filter hl)
  · exact hs.staff
  · intro l hl
    rw [List.mem_filter, decide_eq_true_eq] at hl
    obtain ⟨htogether, hlabel⟩ := hs.attached l hl.1
    exact ⟨htogether, by rwa [Table.findOne_delete, if_neg hl.2]⟩
  · exact hs.linked
  · exact hs.attachedOnce.filter _
  · exact hs.linkedOnce

theorem Housed.removePlatform (hs : db.Housed owner) {id : Uuid} (h : Platform.remove id db = some db') :
    db'.Housed owner := by
  simp only [Platform.remove] at h
  split at h
  · cases h
  · cases h
    constructor
    · exact hs.issues
    · exact fun l hl => hs.labels l (List.mem_of_mem_filter hl)
    · exact hs.staff
    · intro l hl
      rw [List.mem_filter] at hl
      obtain ⟨htogether, hlabel⟩ := hs.attached l hl.1
      refine ⟨htogether, ?_⟩
      obtain ⟨label, hfound⟩ := Option.isSome_iff_exists.mp hlabel
      rw [Table.findOne_filter, hfound, Option.filter_some, if_pos]
      · rfl
      · simpa [hfound] using hl.2
    · exact hs.linked
    · exact hs.attachedOnce.filter _
    · exact hs.linkedOnce

theorem Housed.record (hs : db.Housed owner) {now : Time} {i : AuditInput} (h : AuditService.record now i db = some db') :
    db'.Housed owner := by
  cases h
  exact hs.of_fittings hs.issues rfl

theorem Housed.save (hs : db.Housed owner) {now : Time} {e : IssueEntity}
    (hroot : ∀ root, e.duplicateOf = some (some root) → Together owner e.id root) (h : e.save now db = some db') :
    db'.Housed owner := by
  cases h
  apply hs.updateIssues
  intro i hi hid
  refine ⟨by simpa using hi.1, fun root hduplicate => ?_⟩
  rw [IssueEntity.written_id]
  rw [IssueEntity.written_duplicateOf, Option.mem_def] at hduplicate
  cases he : e.duplicateOf with
  | none =>
    rw [he] at hduplicate
    exact hi.2 root hduplicate
  | some target =>
    rw [he] at hduplicate
    cases hduplicate
    exact hid ▸ hroot root he

theorem Housed.commit (hs : db.Housed owner) {w : Write} (hw : w.Housed owner) (env : Env) :
    (w.commit env db).Housed owner := by
  have hkeep (q : Statement Db) (hq : Transaction.Keeps (fun db => (db.issues, db.fittings)) q) (s t : Db)
      (h : q s = some t) (hs : s.Housed owner) : t.Housed owner := by
    have hsame := hq s t h
    rw [Prod.mk.injEq] at hsame
    exact hs.of_fittings (hsame.1 ▸ hs.issues) hsame.2
  have hbody : ∀ q ∈ w.statements env.now, ∀ s t, q s = some t → s.Housed owner → t.Housed owner := by
    intro q hq s t h hs
    simp only [Write.statements, List.mem_cons, List.mem_append, List.mem_map] at hq
    rcases hq with rfl | hother | ⟨a, -, rfl⟩
    · exact hs.save hw.duplicateOf h
    · rcases hw.others with hnone | ⟨staff, duplicate, canonicalId, ids, hothers, htogether⟩
      · rw [hnone] at hother
        cases hother
      · rw [hothers] at hother
        simp only [MergeService.others, List.mem_cons, List.not_mem_nil, or_false] at hother
        rcases hother with rfl | rfl | rfl | rfl
        · exact hs.link htogether h
        · exact hkeep _ (MergeService.keeps_copyWatchers _ _ fun _ _ => rfl) s t h hs
        · exact hkeep _ (Comment.keeps_insert (fun _ _ => rfl) _) s t h hs
        · exact hkeep _ (Comment.keeps_insert (fun _ _ => rfl) _) s t h hs
    · exact hs.record h
  exact Transaction.commit_preserves hbody hs

theorem Housed.intake (hs : db.Housed owner) {env : Env} {ctx : HandoffContext} {dto : CreateIssueDto}
    {stored : List StoredFile} {ids : IntakeIds} (hid : owner ids.issue = some (.platform ctx.platformId)) :
    (ReporterService.createIssue env ctx dto stored ids db).Housed owner := by
  refine hs.of_fittings (fun i hi => ?_) ?_
  · rcases ReporterService.createIssue_cases env ctx dto stored ids db with ⟨hissues, -⟩ | ⟨reporter, hinsert, -⟩
    · exact hs.issues i (hissues ▸ hi)
    · rcases (Table.mem_insert hinsert).mp hi with hold | rfl
      · exact hs.issues i hold
      · exact ⟨hid, fun root hroot => by cases hroot⟩
  · exact ReporterService.createIssue_keeps (fun _ _ => rfl) (fun _ _ => rfl) (fun _ _ => rfl) (fun _ _ => rfl) db

theorem Housed.applyAction (hs : db.Housed owner) {cfg : Config} {env : Env} {rule : AutomationRule}
    {issue : IssueEntity} {run : AutomationRun} (hrule : rule.Apt owner)
    (hissue : owner issue.id = some (.platform rule.platform))
    (h : AutomationService.applyAction cfg env rule ⟨issue, db, []⟩ = .ok run) :
    run.db.Housed owner ∧ run.issue.id = issue.id ∧ run.issue.platform = issue.platform := by
  unfold AutomationService.applyAction at h
  split at h
  · split at h
    · cases h
      exact ⟨hs, rfl, rfl⟩
    · split at h
      · cases h
      · split at h
        · cases h
        · rename_i target _ db' hbody
          cases h
          refine ⟨Transaction.body_preserves ?_ hbody hs, rfl, rfl⟩
          simp only [List.forall_mem_cons, List.not_mem_nil, false_implies, implies_true, and_true]
          refine ⟨fun s t hst hs => ?_, fun s t hst hs => hs.record hst⟩
          cases hst
          exact hs.updateIssues _ fun i hi _ => hi
  · split at h
    · cases h
      exact ⟨hs, rfl, rfl⟩
    · split at h
      · cases h
      · split at h
        · cases h
        · split at h
          · cases h
          · rename_i db' hbody
            cases h
            refine ⟨Transaction.body_preserves ?_ hbody hs, rfl, rfl⟩
            simp only [List.forall_mem_cons, List.not_mem_nil, false_implies, implies_true, and_true]
            refine ⟨fun s t hst hs => ?_, fun s t hst hs => hs.record hst⟩
            cases hst
            exact hs.updateIssues _ fun i hi _ => hi
  · split at h
    · cases h
    · rename_i db' hbody
      cases h
      refine ⟨Transaction.body_preserves ?_ hbody hs, rfl, rfl⟩
      simp only [List.forall_mem_cons, List.not_mem_nil, false_implies, implies_true, and_true]
      refine ⟨fun s t hst hs => ?_, fun s t hst hs => hs.record hst⟩
      have hlabel : (s.labels.findOne rule.actionValue).isSome := by
        unfold IssueLabel.insertOrIgnore at hst
        split at hst
        · cases hst
        · rename_i hlabel
          simpa [Option.isSome_iff_ne_none] using hlabel
      obtain ⟨label, hfound⟩ := Option.isSome_iff_exists.mp hlabel
      obtain ⟨hplatform, hpriority⟩ := hs.labels label (Table.mem_of_findOne hfound)
      rw [Table.findOne_key hfound] at hplatform hpriority
      refine hs.attach ?_ hst
      rcases hrule.2 with hown | hstaff | hvalue
      · exact .of hissue hown
      · rw [hplatform] at hstaff
        cases hstaff
      · rw [hpriority] at hvalue
        cases hvalue

end Db

theorem Request.Loads.housed {owner : Owners Uuid Owner} {now : Time} {db : Db} {r : Request} {w : Write}
    (hs : db.Housed owner) (h : Request.Loads now db r w) : w.Housed owner := by
  obtain ⟨row, hrow, -, hplatform⟩ := h.row
  obtain ⟨hhoused, hid⟩ := hs.findIssue hrow
  have hissue : owner w.issue.id = some (.platform w.issue.platform) := by
    rw [hplatform, ← hid]
    exact hhoused.1
  cases h with
  | @merge _ _ _ _ duplicate canonical root hduplicate hcanonical _ hsame _ _ _ _ _ hop =>
    obtain ⟨hduplicateHoused, -⟩ := hs.findIssue hduplicate
    obtain ⟨hcanonicalHoused, -⟩ := hs.findIssue hcanonical
    have htogether := Together.of hduplicateHoused.1 (hsame ▸ hcanonicalHoused.1)
    -- a canonical issue that is merged itself leads to its root, on the same platform
    have hmerged : Together owner duplicate.id root.id := by
      rcases hop with rfl | hmerged
      · exact htogether
      · exact htogether.trans (hcanonicalHoused.2 _ hmerged)
    constructor
    · exact hissue
    · intro root heq
      cases heq
      exact hmerged
    · exact .inr ⟨_, _, _, _, rfl, hmerged⟩
  | changeStatus =>
    refine ⟨hissue, fun root heq => ?_, .inl rfl⟩
    rw [IssuesService.statusWrite, IssueEntity.setStatus_duplicateOf] at heq
    split at heq <;> cases heq
  | changePriority =>
    refine ⟨hissue, fun root heq => ?_, .inl rfl⟩
    cases heq
  | changeAssignment =>
    refine ⟨hissue, fun root heq => ?_, .inl rfl⟩
    cases heq
  | webhook =>
    refine ⟨hissue, fun root heq => ?_, .inl rfl⟩
    rw [JiraInboundService.webhookWrite, IssueEntity.setStatus_duplicateOf] at heq
    split at heq <;> cases heq

namespace AutomationService

variable {owner : Owners Uuid Owner} {cfg : Config} {db : Db} {rule rule' selected : AutomationRule}

theorem assertActionValue_ok (hs : db.Housed owner) {platformId : Uuid} {action : AutomationAction} {actionValue : String}
    (h : assertActionValue cfg db platformId action actionValue = .ok ()) :
    owner actionValue = some (.platform platformId) ∨ owner actionValue = some .staff ∨
      (Priority.ofValue actionValue).isSome := by
  cases action with
  | setPriority => exact .inr (.inr (require_ok h))
  | assign =>
    obtain ⟨_, hassignable, -⟩ := bind_ok h
    obtain ⟨_, -, hassignable⟩ := bind_ok hassignable
    simp only [IssuesService.assignable] at hassignable
    split at hassignable
    · cases hassignable
    · rename_i user huser
      rw [← Table.findOne_key huser]
      exact .inr (.inl (hs.staff user (Table.mem_of_findOne huser)))
  | addLabel =>
    obtain ⟨_, -, h⟩ := bind_ok h
    split at h
    · cases h
    · rename_i label hlabel
      obtain ⟨hfound, hplatform⟩ := Option.filter_eq_some_iff.mp hlabel
      obtain ⟨hhoused, hid⟩ := hs.findLabel hfound
      rw [← hid, hhoused, of_decide_eq_true hplatform]
      exact .inl rfl

theorem updated_apt (hs : db.Housed owner) {dto : UpdateAutomationRuleDto} (hrule : rule.Apt owner)
    (h : updated cfg db rule dto = .ok rule') : rule'.Apt owner := by
  unfold updated at h
  simp only at h
  split at h
  · obtain ⟨_, hvalue, h⟩ := bind_ok h
    cases h
    exact ⟨hrule.1, assertActionValue_ok hs hvalue⟩
  · rename_i hneither
    cases h
    have hvalue : dto.actionValue = none := by
      rw [Bool.or_eq_true, not_or] at hneither
      simpa using hneither.2
    rw [hvalue]
    exact hrule

theorem changedColumns_apt {row : AutomationRule} (hrow : row.Apt owner) (hrule : rule.Apt owner)
    (hid : row.id = rule.id) : (changedColumns selected rule row).Apt owner := by
  have hplatform : rule.platform = row.platform := by
    have hsame := hrow.1.symm.trans (hid ▸ hrule.1)
    simpa using hsame.symm
  refine ⟨hrow.1, ?_⟩
  simp only [changedColumns]
  split
  · exact hrow.2
  · exact hplatform ▸ hrule.2

end AutomationService

namespace Tenancy

variable {cfg : Config} {s s' : Tenancy}

theorem Inv.push (hs : Inv s) {job : TenantJob} (hjob : job.Housed s.owner) : Inv (s.push job) where
  db := hs.db
  rules := hs.rules
  jobs j hj := by
    rcases List.mem_append.mp hj with hold | hnew
    · exact hs.jobs j hold
    · cases List.mem_singleton.mp hnew
      exact hjob

theorem Inv.withDb (hs : Inv s) {db : Db} (hdb : db.Housed s.owner) : Inv { s with db } := ⟨hdb, hs.rules, hs.jobs⟩

theorem Inv.run (hs : Inv s) {env : Env} {q : Statement Db}
    (hq : ∀ db db', q db = some db' → db.Housed s.owner → db'.Housed s.owner) : Inv (s.run env [q]) := by
  apply hs.withDb
  apply Transaction.commit_preserves _ hs.db
  intro p hp
  rw [List.mem_singleton.mp hp]
  exact hq

theorem Inv.give (hs : Inv s) {id : Uuid} (hfree : s.owner id = none) (owner : Owner) : Inv (s.give id owner) :=
  have hg := grows_update hfree
  ⟨hs.db.grows hg, fun r hr => (hs.rules r hr).grows hg, fun j hj => (hs.jobs j hj).grows hg⟩

theorem Inv.withRules (hs : Inv s) {rules : Table AutomationRule.id} (hrules : ∀ r ∈ rules.rows, r.Apt s.owner) :
    Inv { s with rules } := ⟨hs.db, hrules, hs.jobs⟩

theorem Inv.insertRule (hs : Inv s) {rule : AutomationRule} (hrule : rule.Apt s.owner) : Inv (s.insertRule rule) := by
  unfold Tenancy.insertRule
  split
  · exact hs
  · split
    · exact hs
    · rename_i hinsert
      apply hs.withRules
      intro r hr
      rcases (Table.mem_insert hinsert).mp hr with hold | rfl
      · exact hs.rules r hold
      · exact hrule

theorem give_owner (s : Tenancy) (id : Uuid) (owner : Owner) : (s.give id owner).owner id = some owner :=
  Function.update_self ..

theorem Inv.perform (hs : Inv s) (env : Env) (linkId : Uuid) {job : TenantJob} (hjob : job.Housed s.owner) :
    Inv (s.perform cfg env linkId job) := by
  cases job with
  | addLabel issue labelId =>
    simp only [Tenancy.perform]
    split
    · exact hs
    · rename_i label hlabel
      split
      · exact hs
      · rename_i hplatform
        apply hs.push
        rw [not_not] at hplatform
        exact .of hjob (hplatform ▸ (hs.db.findLabel hlabel).1)
  | attachLabel issue label => exact hs.run fun db db' h hdb => hdb.attach (l := ⟨issue.id, label.id⟩) hjob h
  | removeLabel label => exact hs.run fun db db' h hdb => hdb.removeLabel h
  | linkTarget source dto staff =>
    simp only [Tenancy.perform]
    split
    · exact hs
    · rename_i target htarget
      split
      · exact hs
      · rename_i hplatform
        rw [not_not] at hplatform
        apply hs.push
        exact .of hjob (hplatform ▸ (hs.db.findIssue htarget).1.1)
  | insertLink source target type staff => exact hs.run fun db db' h hdb => hdb.link (l := ⟨linkId, source.id, target.id, type, staff.id, env.now⟩) hjob h
  | insertRule rule => exact hs.insertRule hjob
  | assignRule rule dto =>
    simp only [Tenancy.perform]
    split
    · exact hs
    · rename_i hupdated
      exact hs.push (AutomationService.updated_apt hs.db hjob hupdated)
  | saveRule rule =>
    simp only [Tenancy.perform]
    split
    · exact hs.push hjob
    · rename_i hselected
      exact hs.push ⟨Table.findOne_key hselected, hjob⟩
  | updateRule selected rule =>
    apply hs.withRules
    intro r hr
    obtain ⟨row, hrow, rfl⟩ := List.mem_map.mp hr
    split
    · rename_i hid
      exact AutomationService.changedColumns_apt (hs.rules row hrow) hjob.2 hid
    · exact hs.rules row hrow
  | removeRule rule => exact hs.withRules fun r hr => hs.rules r (List.mem_of_mem_filter hr)
  | applyRules issueId rules =>
    simp only [Tenancy.perform]
    split
    · exact hs
    · rename_i row hrow
      obtain ⟨hhoused, hid⟩ := hs.db.findIssue hrow
      subst hid
      exact hs.push ⟨hhoused.1, hjob⟩
  | applyAction issue rules =>
    obtain ⟨hissue, hrules⟩ := hjob
    cases rules with
    | nil => exact hs
    | cons rule rules =>
      have hrest := fun r hr => hrules r (List.mem_cons_of_mem _ hr)
      obtain ⟨hrule, hplatform⟩ := hrules rule List.mem_cons_self
      simp only [Tenancy.perform]
      split
      · exact hs.push ⟨hissue, hrest⟩
      · rename_i run happly
        obtain ⟨hdb, hid, hsame⟩ := hs.db.applyAction hrule hplatform happly
        refine (hs.withDb hdb).push ⟨?_, ?_⟩
        · rw [hid, hsame]
          exact hissue
        · rw [hid]
          exact hrest
  | commit write => exact hs.withDb (hs.db.commit hjob env)

theorem Inv.loadRules (hs : Inv s) {issueId : Uuid} {issue : Issue} (hissue : s.db.issues.findOne issueId = some issue)
    {rules : List AutomationRule} (hrules : ∀ r ∈ rules, r ∈ s.rules.rows ∧ r.platform = issue.platform) :
    Inv (s.push (.applyRules issueId rules)) := by
  obtain ⟨hhoused, hid⟩ := hs.db.findIssue hissue
  apply hs.push
  intro r hr
  obtain ⟨hrow, hplatform⟩ := hrules r hr
  exact ⟨hs.rules r hrow, hplatform ▸ hid ▸ hhoused.1⟩

theorem Inv.createLabel (hs : Inv s) {label : Label} (hfresh : s.Fresh label.id) {db : Db}
    (h : LabelsService.insert label s.db = some db) : Inv ({ s with db }.give label.id (.platform label.platform)) := by
  unfold LabelsService.insert at h
  split at h
  · cases h
  · split at h
    · cases h
    · obtain ⟨labels, hinsert, rfl⟩ := Option.map_eq_some_iff.mp h
      have hgiven := hs.give hfresh.1 (.platform label.platform)
      refine ⟨?_, hgiven.rules, hgiven.jobs⟩
      constructor
      · exact hgiven.db.issues
      · intro l hl
        rcases (Table.mem_insert hinsert).mp hl with hold | rfl
        · exact hgiven.db.labels l hold
        · exact ⟨s.give_owner _ _, hfresh.2⟩
      · exact hgiven.db.staff
      · intro l hl
        obtain ⟨htogether, hlabel⟩ := hgiven.db.attached l hl
        refine ⟨htogether, ?_⟩
        simp only [Tenancy.give]
        rw [Table.findOne_insert hinsert]
        split
        · rfl
        · exact hlabel
      · exact hgiven.db.linked
      · exact hgiven.db.attachedOnce
      · exact hgiven.db.linkedOnce

theorem Inv.createStaff (hs : Inv s) {user : StaffUser} (hfresh : s.Fresh user.id) {staffUsers : Table StaffUser.id}
    (h : s.db.staffUsers.insert user = some staffUsers) :
    Inv ({ s with db := { s.db with staffUsers } }.give user.id .staff) := by
  have hgiven := hs.give hfresh.1 .staff
  refine ⟨?_, hgiven.rules, hgiven.jobs⟩
  constructor
  · exact hgiven.db.issues
  · exact hgiven.db.labels
  · intro u hu
    rcases (Table.mem_insert h).mp hu with hold | rfl
    · exact hgiven.db.staff u hold
    · exact s.give_owner _ _
  · exact hgiven.db.attached
  · exact hgiven.db.linked
  · exact hgiven.db.attachedOnce
  · exact hgiven.db.linkedOnce

theorem step_inv (s : Tenancy) (a : Action) (hs : Inv s) : Inv (step cfg s a) := by
  cases a with
  | createPlatform platform =>
    simp only [step]
    split
    · exact hs
    · exact hs.withDb (hs.db.of_fittings hs.db.issues rfl)
  | deletePlatform id =>
    simp only [step]
    split
    · exact hs
    · rename_i hremove
      refine (hs.withDb (hs.db.removePlatform hremove)).withRules fun r hr => ?_
      exact hs.rules r (List.mem_of_mem_filter hr)
  | createStaff user =>
    simp only [step]
    split
    · rename_i hfresh
      split
      · exact hs
      · rename_i hinsert
        exact hs.createStaff hfresh hinsert
    · exact hs
  | administer staffUsers roles =>
    simp only [step]
    split
    · rename_i hstaff
      apply hs.withDb
      constructor
      · exact hs.db.issues
      · exact hs.db.labels
      · exact hstaff
      · exact hs.db.attached
      · exact hs.db.linked
      · exact hs.db.attachedOnce
      · exact hs.db.linkedOnce
    · exact hs
  | createLabel staff platformId name color id =>
    simp only [step]
    split
    · rename_i hallowed
      rw [Bool.and_eq_true, decide_eq_true_eq] at hallowed
      split
      · exact hs
      · rename_i hinsert
        exact hs.createLabel hallowed.2 hinsert
    · exact hs
  | deleteLabel staff platformId labelId =>
    simp only [step]
    split
    · split
      · exact hs
      · exact hs.push trivial
    · exact hs
  | addLabel issueId labelId =>
    simp only [step]
    split
    · exact hs
    · rename_i issue hissue
      exact hs.push (hs.db.findIssue hissue).1.1
  | removeFromIssue issueId labelId =>
    apply hs.withDb
    constructor
    · exact hs.db.issues
    · exact hs.db.labels
    · exact hs.db.staff
    · exact fun l hl => hs.db.attached l (List.mem_of_mem_filter hl)
    · exact hs.db.linked
    · exact hs.db.attachedOnce.filter _
    · exact hs.db.linkedOnce
  | createLink staff issueId dto =>
    simp only [step]
    split
    · exact hs
    · split
      · exact hs
      · rename_i source hsource
        exact hs.push (hs.db.findIssue hsource).1.1
  | removeLink issueId linkId =>
    apply hs.withDb
    constructor
    · exact hs.db.issues
    · exact hs.db.labels
    · exact hs.db.staff
    · exact hs.db.attached
    · exact fun l hl => hs.db.linked l (List.mem_of_mem_filter hl)
    · exact hs.db.attachedOnce
    · exact hs.db.linkedOnce.sublist (List.filter_sublist.map _)
  | createRule staff platformId dto id =>
    simp only [step]
    split
    · rename_i hallowed
      rw [Bool.and_eq_true, decide_eq_true_eq] at hallowed
      split
      · exact hs
      · rename_i hvalue
        have hgiven := hs.give hallowed.2.1 (.platform platformId)
        apply hgiven.push
        exact ⟨s.give_owner _ _, AutomationService.assertActionValue_ok hgiven.db hvalue⟩
    · exact hs
  | updateRule staff platformId ruleId dto =>
    simp only [step]
    split
    · split
      · exact hs
      · rename_i rule hrule
        obtain ⟨hfound, -⟩ := Option.filter_eq_some_iff.mp hrule
        exact hs.push (hs.rules rule (Table.mem_of_findOne hfound))
    · exact hs
  | removeRule staff platformId ruleId =>
    simp only [step]
    split
    · split
      · exact hs
      · exact hs.push trivial
    · exact hs
  | issueCreated issueId =>
    simp only [step]
    split
    · exact hs
    · rename_i issue hissue
      apply hs.loadRules hissue
      intro r hr
      simp only [AutomationService.rulesForCreated, List.mem_filter, Bool.and_eq_true, decide_eq_true_eq] at hr
      exact ⟨hr.1, hr.2.1.1⟩
  | statusChanged issueId target =>
    simp only [step]
    split
    · exact hs
    · rename_i issue hissue
      apply hs.loadRules hissue
      intro r hr
      simp only [AutomationService.rulesForStatusChanged, List.mem_filter, Bool.and_eq_true, decide_eq_true_eq] at hr
      exact ⟨hr.1, hr.2.1.1.1⟩
  | intake env ctx dto stored ids =>
    simp only [step]
    split
    · rename_i hfresh
      have hgiven := hs.give hfresh.1 (.platform ctx.platformId)
      exact hgiven.withDb (hgiven.db.intake (s.give_owner _ _))
    · exact hs
  | request now r =>
    simp only [step]
    split
    · rename_i w hload
      exact hs.push ((Request.loads_of_load hload).housed hs.db)
    · exact hs
  | edit e =>
    apply hs.withDb
    apply hs.db.updateIssues
    intro i hi _
    rw [Issue.Housed, e.id, e.platform, e.duplicateOf]
    exact hi
  | proceed i env linkId =>
    simp only [step]
    split
    · exact hs
    · rename_i job hjob
      have hrest : Inv { s with jobs := s.jobs.eraseIdx i } :=
        ⟨hs.db, hs.rules, fun j hj => hs.jobs j (List.eraseIdx_subset hj)⟩
      split
      · exact hrest
      · exact hrest.perform env linkId (hs.jobs job (List.mem_of_getElem? hjob))

theorem start_inv (platforms : Table Platform.id) : Inv (start platforms) := by
  refine ⟨?_, ?_, ?_⟩
  · constructor
    iterate 5 exact fun _ h => absurd h List.not_mem_nil
    · exact List.nodup_nil
    · exact List.nodup_nil
  · exact fun _ h => absurd h List.not_mem_nil
  · exact fun _ h => absurd h List.not_mem_nil

/-- What the workspace of one platform shows of an issue is of that platform. -/
structure Isolated (s : Tenancy) : Prop where
  labels : ∀ l ∈ s.db.issueLabels, ∃ label, s.db.labels.findOne l.label = some label ∧
    ∀ issue ∈ s.db.issues.findOne l.issue, label.platform = issue.platform
  links : ∀ l ∈ s.db.issueLinks, ∀ source ∈ s.db.issues.findOne l.sourceIssue,
    ∀ target ∈ s.db.issues.findOne l.targetIssue, source.platform = target.platform
  duplicates : ∀ i ∈ s.db.issues.rows, ∀ root ∈ i.duplicateOf.bind s.db.issues.findOne, root.platform = i.platform
  rules : ∀ r ∈ s.rules.rows, ∀ label ∈ s.db.labels.findOne r.actionValue, label.platform = r.platform
  labelledOnce : s.db.issueLabels.Nodup
  linkedOnce : (s.db.issueLinks.map fun l => (l.sourceIssue, l.targetIssue, l.type)).Nodup

theorem Inv.isolated (hs : Inv s) : Isolated s := by
  have hsame {a b : Uuid} {p q : Uuid} (h : Together s.owner a b) (ha : s.owner a = some (.platform p))
      (hb : s.owner b = some (.platform q)) : p = q := by
    have howner := h.owner ha
    rw [hb] at howner
    simpa using howner.symm
  constructor
  · intro l hl
    obtain ⟨htogether, hlabel⟩ := hs.db.attached l hl
    obtain ⟨label, hfound⟩ := Option.isSome_iff_exists.mp hlabel
    refine ⟨label, hfound, fun issue hissue => ?_⟩
    obtain ⟨hhoused, hid⟩ := hs.db.findIssue hissue
    obtain ⟨howner, hlabelId⟩ := hs.db.findLabel hfound
    exact hsame htogether.symm (hlabelId ▸ howner) (hid ▸ hhoused.1)
  · intro l hl
    have htogether := hs.db.linked l hl
    intro source hsource target htarget
    obtain ⟨hsourceHoused, hsourceId⟩ := hs.db.findIssue hsource
    obtain ⟨htargetHoused, htargetId⟩ := hs.db.findIssue htarget
    exact hsame htogether (hsourceId ▸ hsourceHoused.1) (htargetId ▸ htargetHoused.1)
  · intro i hi root hroot
    obtain ⟨rootId, hduplicate, hfound⟩ := Option.bind_eq_some_iff.mp hroot
    obtain ⟨hhoused, htogether⟩ := hs.db.issues i hi
    obtain ⟨hrootHoused, hid⟩ := hs.db.findIssue hfound
    exact hsame (htogether rootId hduplicate).symm (hid ▸ hrootHoused.1) hhoused
  · intro r hr label hlabel
    obtain ⟨howner, hpriority⟩ := hs.db.labels label (Table.mem_of_findOne hlabel)
    rw [Table.findOne_key hlabel] at howner hpriority
    rcases (hs.rules r hr).2 with hown | hstaff | hvalue
    · rw [howner] at hown
      simpa using hown
    · rw [howner] at hstaff
      cases hstaff
    · rw [hpriority] at hvalue
      cases hvalue
  · exact hs.db.attachedOnce
  · exact hs.db.linkedOnce

/-- However requests, automation runs and administration interleave, and wherever these fail. -/
theorem always_isolated (cfg : Config) (platforms : Table Platform.id) (as : List Action) :
    Always (step cfg) Isolated (start platforms) as :=
  (always_of_step step_inv (start_inv platforms) as).mono fun _ hs => hs.isolated

end Tenancy

end Cimp
