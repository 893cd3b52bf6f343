import Mathlib.Data.List.Sort
import Cimp.Issues.Automation
import Cimp.Lib.Distinct
import Cimp.Reporter.Intake

namespace Cimp

structure StaffView where
  id : Uuid
  name : String
  email : String
deriving DecidableEq, Repr

namespace IssuesService

def toStaffView (u : StaffUser) : StaffView := ⟨u.id, u.name, u.email⟩

/-- The join of the pickers: the active accounts behind the grants for the platform, or for all
platforms, whose role is wanted. -/
def grantees (db : Db) (platformId : Uuid) (wanted : Role → Bool) : List StaffUser :=
  (db.roles.filter fun g => wanted g.role && (g.platform = some platformId || g.platform = none)).filterMap
    fun g => (db.staffUsers.findOne g.staffUser).filter fun u => u.status = .active

/-- `[...byId.values()].sort(...)`; `localeCompare a b` is the sign of `a.localeCompare(b)`. -/
def picker (localeCompare : String → String → Int) (users : List StaffUser) : List StaffView :=
  ((Distinct.firsts StaffUser.id users).map toStaffView).mergeSort fun a b => localeCompare a.name b.name ≤ 0

def listAssignees (localeCompare : String → String → Int) (db : Db) (issueId : Uuid) :
    Except HttpException (List StaffView) :=
  match db.issues.findOne issueId with
  | none => .error (.notFound "Issue not found")
  | some issue => .ok (picker localeCompare (grantees db issue.platform fun role => role = .developer))

def listPlatformMembers (localeCompare : String → String → Int) (db : Db) (issueId : Uuid) :
    Except HttpException (List StaffView) :=
  match db.issues.findOne issueId with
  | none => .error (.notFound "Issue not found")
  | some issue => .ok (picker localeCompare (grantees db issue.platform fun role => role ≠ .watcher))

variable {db : Db} {platformId id : Uuid} {wanted : Role → Bool}

theorem picker_perm (localeCompare : String → String → Int) (users : List StaffUser) :
    ((picker localeCompare users).map StaffView.id).Perm ((Distinct.firsts StaffUser.id users).map StaffUser.id) := by
  have hsort := (List.mergeSort_perm ((Distinct.firsts StaffUser.id users).map toStaffView)
    fun a b => localeCompare a.name b.name ≤ 0).map StaffView.id
  rwa [List.map_map] at hsort

theorem nodup_picker (localeCompare : String → String → Int) (users : List StaffUser) :
    ((picker localeCompare users).map StaffView.id).Nodup :=
  (picker_perm localeCompare users).nodup_iff.mpr (Distinct.nodup_firsts users)

theorem mem_picker {localeCompare : String → String → Int} {users : List StaffUser} :
    id ∈ (picker localeCompare users).map StaffView.id ↔ id ∈ users.map StaffUser.id := by
  rw [(picker_perm localeCompare users).mem_iff, Distinct.mem_keys_firsts]

structure Eligible (db : Db) (platformId : Uuid) (wanted : Role → Bool) (id : Uuid) : Prop where
  active : ∃ user, db.staffUsers.findOne id = some user ∧ user.status = .active
  granted : ∃ g ∈ db.roles, g.staffUser = id ∧ wanted g.role = true ∧
    (g.platform = some platformId ∨ g.platform = none)

theorem eligible_congr {db' : Db} (husers : db'.staffUsers = db.staffUsers) (hroles : db'.roles = db.roles) :
    Eligible db' platformId wanted id ↔ Eligible db platformId wanted id := by
  constructor
  · rintro ⟨hactive, hgranted⟩
    exact ⟨husers ▸ hactive, hroles ▸ hgranted⟩
  · rintro ⟨hactive, hgranted⟩
    exact ⟨husers ▸ hactive, hroles ▸ hgranted⟩

theorem mem_grantees : id ∈ (grantees db platformId wanted).map StaffUser.id ↔ Eligible db platformId wanted id := by
  constructor
  · intro h
    obtain ⟨user, huser, rfl⟩ := List.mem_map.mp h
    obtain ⟨g, hg, hfound⟩ := List.mem_filterMap.mp huser
    obtain ⟨hrow, hactive⟩ := Option.filter_eq_some_iff.mp hfound
    obtain ⟨hmem, hgrant⟩ := List.mem_filter.mp hg
    have hkey : user.id = g.staffUser := Table.findOne_key hrow
    simp only [Bool.and_eq_true, Bool.or_eq_true, decide_eq_true_eq] at hgrant hactive
    exact ⟨⟨user, hkey ▸ hrow, hactive⟩, g, hmem, hkey.symm, hgrant⟩
  · rintro ⟨⟨user, hrow, hactive⟩, g, hg, rfl, hgrant⟩
    apply List.mem_map.mpr
    refine ⟨user, List.mem_filterMap.mpr ⟨g, ?_, ?_⟩, Table.findOne_key hrow⟩
    · exact List.mem_filter.mpr ⟨hg, by simpa using hgrant⟩
    · rw [hrow, Option.filter_some, if_pos (by simpa using hactive)]

theorem canAccessPlatform_loadRoles {user : StaffUser} {roles : List Role} :
    ScopeService.canAccessPlatform (user.toAuthenticated (loadRoles db user.id)) platformId roles = true ↔
      ∃ g ∈ db.roles, g.staffUser = user.id ∧ g.role ∈ roles ∧ (g.platform = none ∨ g.platform = some platformId) := by
  simp only [ScopeService.canAccessPlatform, StaffUser.toAuthenticated, loadRoles, List.any_map, List.any_filter,
    List.any_eq_true, Function.comp_apply, Bool.and_eq_true, Bool.or_eq_true, decide_eq_true_eq]

theorem assignable_iff : (∃ target, assignable db platformId (some id) = .ok target) ↔
    Eligible db platformId (fun role => role = .developer) id := by
  constructor
  · rintro ⟨target, h⟩
    simp only [assignable] at h
    split at h
    · cases h
    · rename_i user hrow
      obtain ⟨_, hactive, h⟩ := bind_ok h
      obtain ⟨_, hdevelop, _⟩ := bind_ok h
      obtain ⟨g, hg, hstaff, hrole, hplatform⟩ := canAccessPlatform_loadRoles.mp (require_ok hdevelop)
      have hkey : user.id = id := Table.findOne_key hrow
      exact ⟨⟨user, hrow, require_decide hactive⟩, g, hg, hstaff.trans hkey, by simpa using hrole, hplatform.symm⟩
  · rintro ⟨⟨user, hrow, hactive⟩, g, hg, hstaff, hrole, hplatform⟩
    have hkey : user.id = id := Table.findOne_key hrow
    have hdevelop : ScopeService.canAccessPlatform (user.toAuthenticated (loadRoles db user.id)) platformId
        [.developer] = true :=
      canAccessPlatform_loadRoles.mpr ⟨g, hg, hstaff.trans hkey.symm, by simpa using hrole, hplatform.symm⟩
    exact ⟨some user.id, by simp [assignable, hrow, hactive, hdevelop, require, bind, Except.bind, pure, Except.pure]⟩

theorem applyAssignment_iff (staff : AuthenticatedStaff) (issue : IssueEntity) :
    (∃ w, applyAssignment db staff issue ⟨some id, issue.version⟩ = .ok w) ↔
      ∃ target, assignable db issue.platform (some id) = .ok target := by
  constructor
  · rintro ⟨w, h⟩
    obtain ⟨_, _, h⟩ := bind_ok h
    obtain ⟨target, htarget, _⟩ := bind_ok h
    exact ⟨target, htarget⟩
  · rintro ⟨target, htarget⟩
    exact ⟨assignmentWrite staff issue target, by
      simp [applyAssignment, assertVersion, htarget, require, bind, Except.bind, pure, Except.pure]⟩

theorem assertAssignable_iff {cfg : Config} (hid : cfg.isUuid id = true) :
    (∃ target, AutomationService.assertAssignable cfg db id platformId = .ok target) ↔
      ∃ target, assignable db platformId (some id) = .ok target := by
  simp [AutomationService.assertAssignable, hid, require, bind, Except.bind]

theorem assignable_agree (localeCompare : String → String → Int) (cfg : Config) (db : Db) (staff : AuthenticatedStaff)
    (issue : Issue) (id : Uuid) (hissue : db.issues.findOne issue.id = some issue) (hid : cfg.isUuid id = true) :
    ∃ listed, listAssignees localeCompare db issue.id = .ok listed ∧
      (id ∈ listed.map StaffView.id ↔ (listed.map StaffView.id).count id = 1) ∧
      (id ∈ listed.map StaffView.id ↔
        ∃ w, applyAssignment db staff (issue.toEntity { assignee := true }) ⟨some id, issue.version⟩ = .ok w) ∧
      (id ∈ listed.map StaffView.id ↔
        ∃ target, AutomationService.assertAssignable cfg db id issue.platform = .ok target) := by
  have hlisted : listAssignees localeCompare db issue.id =
      .ok (picker localeCompare (grantees db issue.platform fun role => role = .developer)) := by
    simp [listAssignees, hissue]
  refine ⟨_, hlisted, ?_, ?_, ?_⟩
  · rw [(nodup_picker localeCompare _).count]
    simp
  · rw [mem_picker, mem_grantees, ← assignable_iff]
    exact (applyAssignment_iff staff (issue.toEntity { assignee := true })).symm
  · rw [mem_picker, mem_grantees, ← assignable_iff]
    exact (assertAssignable_iff hid).symm

end IssuesService

namespace Sample

def assigneeIssue : Issue :=
  ReporterService.newIssue 0 context ⟨"Printer is down", none⟩ "reporter" ⟨"issue", "reporter", "P-1"⟩

def assigneeTeam : Db :=
  { Db.empty with
    staffUsers := ⟨[⟨"dev", "local:dev", "Dev", "dev@cimp", none, .active, 1⟩,
      ⟨"watcher", "local:watcher", "Watcher", "watcher@cimp", none, .active, 1⟩], by decide⟩
    roles := [⟨"g1", "dev", some "P", .developer⟩, ⟨"g2", "dev", none, .developer⟩,
      ⟨"g3", "watcher", some "P", .watcher⟩]
    issues := ⟨[assigneeIssue], by decide⟩ }

end Sample

theorem IssuesService.assignable_agree_developer :
    ∃ listed, listAssignees (fun _ _ => 0) Sample.assigneeTeam "issue" = .ok listed ∧
      (listed.map StaffView.id).count "dev" = 1 := by
  obtain ⟨listed, hlisted, honce, haccepted, _⟩ := assignable_agree (fun _ _ => 0) Sample.config Sample.assigneeTeam
    Sample.admin Sample.assigneeIssue "dev" (by decide) (by decide)
  refine ⟨listed, hlisted, honce.mp (haccepted.mpr ?_)⟩
  exact ⟨_, rfl⟩

end Cimp
