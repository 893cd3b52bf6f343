import Cimp.Authz.Guard
import Cimp.Issues.Related

namespace Cimp

/-- The filters of the issue list. `search` is what `jql` and `q` add, which also only narrows. -/
structure ListIssuesDto where
  platformId : Option Uuid
  status : Option IssueStatus
  priority : Option Priority
  assigneeId : Option Uuid
  createdFrom : Option Time
  createdTo : Option Time
  search : Issue → Bool

namespace IssuesService

def selects (dto : ListIssuesDto) (issue : Issue) : Bool :=
  dto.platformId.all (fun p => issue.platform = p)
    && dto.status.all (fun s => issue.status = s)
    && dto.priority.all (fun p => issue.priority = p)
    && dto.assigneeId.all (fun a => issue.assignee = some a)
    && dto.createdFrom.all (fun t => t ≤ issue.createdAt)
    && dto.createdTo.all (fun t => issue.createdAt ≤ t)
    && dto.search issue

def buildListQuery (db : Db) (dto : ListIssuesDto) (scope : PlatformScope) : List Issue :=
  db.issues.rows.filter fun issue => ScopeService.scopeAllows scope issue.platform && selects dto issue

def list (db : Db) (staff : AuthenticatedStaff) (dto : ListIssuesDto) : List Issue :=
  match ScopeService.scopedPlatformIds staff with
  | .ids [] => []
  | scope => buildListQuery db dto scope

theorem mem_list {db : Db} {staff : AuthenticatedStaff} {dto : ListIssuesDto} {issue : Issue} :
    issue ∈ list db staff dto ↔ issue ∈ db.issues.rows ∧ selects dto issue = true ∧
      ScopeService.scopeAllows (ScopeService.scopedPlatformIds staff) issue.platform = true := by
  unfold list
  split
  · rename_i hscope
    simp [hscope, ScopeService.scopeAllows]
  · simp only [buildListQuery, List.mem_filter, Bool.and_eq_true]
    tauto

end IssuesService

/-- The answer is not the 404 of a row that is missing. -/
def Visible {α : Type} (answer : Except HttpException α) : Prop := ∀ e, answer = .error e → e.status ≠ 404

variable {db : Db} {staff : AuthenticatedStaff} {platformId : Uuid}

theorem canAccessPlatform_read_iff :
    ScopeService.canAccessPlatform staff platformId staffReadRoles = true ↔
      ∃ g ∈ staff.roles, g.platformId = none ∨ g.platformId = some platformId := by
  simp [ScopeService.canAccessPlatform, mem_staffReadRoles]

/-- The scope that lists filter by ignores roles, but every role reads. -/
theorem scopeAllows_iff_canAccessPlatform (hplatform : platformId ≠ "") :
    ScopeService.scopeAllows (ScopeService.scopedPlatformIds staff) platformId = true ↔
      ScopeService.canAccessPlatform staff platformId staffReadRoles = true := by
  rw [scopeAllows_scopedPlatformIds, canAccessPlatform_read_iff]
  simp [hplatform]

theorem canAccessPlatform_of_subset {more : AuthenticatedStaff} {roles : List Role} (hsub : staff.roles ⊆ more.roles)
    (h : ScopeService.canAccessPlatform staff platformId roles = true) :
    ScopeService.canAccessPlatform more platformId roles = true := by
  simp only [ScopeService.canAccessPlatform, List.any_eq_true] at h ⊢
  obtain ⟨g, hg, haccess⟩ := h
  exact ⟨g, hsub hg, haccess⟩

theorem scopeAllows_of_subset {more : AuthenticatedStaff} (hsub : staff.roles ⊆ more.roles)
    (h : ScopeService.scopeAllows (ScopeService.scopedPlatformIds staff) platformId = true) :
    ScopeService.scopeAllows (ScopeService.scopedPlatformIds more) platformId = true := by
  rw [scopeAllows_scopedPlatformIds] at h ⊢
  obtain ⟨g, hg, haccess⟩ := h
  exact ⟨g, hsub hg, haccess⟩

theorem canAccessPlatform_of_watcher (h : ∀ g ∈ staff.roles, g.role = .watcher) :
    ScopeService.canAccessPlatform staff platformId staffWriteRoles = false := by
  rw [ScopeService.canAccessPlatform, List.any_eq_false]
  intro g hg
  simp [h g hg, staffWriteRoles]

theorem canActivateAnywhere_of_watcher (h : ∀ g ∈ staff.roles, g.role = .watcher) :
    PlatformAccessGuard.canActivateAnywhere staff staffWriteRoles = .error (.forbidden "Insufficient role.") := by
  have hnone : (staff.roles.any fun g => g.role ∈ staffWriteRoles) = false := by
    rw [List.any_eq_false]
    intro g hg
    simp [h g hg, staffWriteRoles]
  rw [PlatformAccessGuard.canActivateAnywhere, hnone]
  rfl

theorem visible_canActivate_iff {required : List Role} {issueId : Uuid} {issue : Issue}
    (hissue : db.issues.findOne issueId = some issue) (hid : uuidPattern issueId = true) :
    Visible (PlatformAccessGuard.canActivate db staff required issueId) ↔
      ScopeService.canAccessPlatform staff issue.platform staffReadRoles = true := by
  unfold PlatformAccessGuard.canActivate
  rw [if_neg (by simp [hid]), hissue]
  cases hread : ScopeService.canAccessPlatform staff issue.platform staffReadRoles with
  | false => simp [Visible, hread, require, bind, Except.bind, HttpException.notFound]
  | true =>
    cases hrequired : ScopeService.canAccessPlatform staff issue.platform required with
    | false => simp [Visible, hread, hrequired, require, bind, Except.bind, HttpException.forbidden]
    | true => simp [Visible, hread, hrequired, require, bind, Except.bind]

theorem visible_getForStaff_iff {storage : String → Except HttpException (List UInt8)} {attachmentId : Uuid}
    {attachment : Attachment} {issue : Issue} (hattachment : db.attachments.findOne attachmentId = some attachment)
    (hissue : db.issues.findOne attachment.issue = some issue)
    (hstorage : Visible (storage attachment.storageKey)) :
    Visible (AttachmentsService.getForStaff storage db staff attachmentId) ↔
      ScopeService.canAccessPlatform staff issue.platform staffReadRoles = true := by
  unfold AttachmentsService.getForStaff
  rw [hattachment, Option.bind_some, hissue, Option.map_some]
  cases hread : ScopeService.canAccessPlatform staff issue.platform staffReadRoles with
  | false => simp [Visible, hread, require, bind, Except.bind, HttpException.notFound]
  | true =>
    by_cases hservable : attachment.scanStatus ∈ servableScanStatuses
    · cases hbuffer : storage attachment.storageKey with
      | error e =>
        have he := hstorage e hbuffer
        simpa [Visible, hread, hservable, hbuffer, require, bind, Except.bind] using he
      | ok buffer => simp [Visible, hread, hservable, hbuffer, require, bind, Except.bind, pure, Except.pure]
    · simp [Visible, hread, hservable, require, bind, Except.bind, HttpException.forbidden]

theorem read_paths_agree (staff : AuthenticatedStaff) (platformId : Uuid) (hplatform : platformId ≠ "") :
    (ScopeService.scopeAllows (ScopeService.scopedPlatformIds staff) platformId = true ↔
      ScopeService.canAccessPlatform staff platformId staffReadRoles = true) ∧
    (∀ (db : Db) (required : List Role) (issueId : Uuid) (issue : Issue), uuidPattern issueId = true →
      db.issues.findOne issueId = some issue → issue.platform = platformId →
      (Visible (PlatformAccessGuard.canActivate db staff required issueId) ↔
        ScopeService.canAccessPlatform staff platformId staffReadRoles = true)) ∧
    (∀ (storage : String → Except HttpException (List UInt8)) (db : Db) (attachmentId : Uuid)
      (attachment : Attachment) (issue : Issue), (∀ key, Visible (storage key)) →
      db.attachments.findOne attachmentId = some attachment → db.issues.findOne attachment.issue = some issue →
      issue.platform = platformId →
      (Visible (AttachmentsService.getForStaff storage db staff attachmentId) ↔
        ScopeService.canAccessPlatform staff platformId staffReadRoles = true)) ∧
    (∀ (db : Db) (dto : ListIssuesDto) (issue : Issue), issue ∈ db.issues.rows → issue.platform = platformId →
      IssuesService.selects dto issue = true →
      (issue ∈ IssuesService.list db staff dto ↔
        ScopeService.canAccessPlatform staff platformId staffReadRoles = true)) ∧
    (∀ more : AuthenticatedStaff, staff.roles ⊆ more.roles →
      (ScopeService.scopeAllows (ScopeService.scopedPlatformIds staff) platformId = true →
        ScopeService.scopeAllows (ScopeService.scopedPlatformIds more) platformId = true) ∧
      ∀ roles, ScopeService.canAccessPlatform staff platformId roles = true →
        ScopeService.canAccessPlatform more platformId roles = true) ∧
    ((∀ g ∈ staff.roles, g.role = .watcher) →
      ScopeService.canAccessPlatform staff platformId staffWriteRoles = false ∧
      PlatformAccessGuard.canActivateAnywhere staff staffWriteRoles = .error (.forbidden "Insufficient role.")) := by
  refine ⟨scopeAllows_iff_canAccessPlatform hplatform, ?_, ?_, ?_, ?_, ?_⟩
  · rintro db required issueId issue hid hissue rfl
    exact visible_canActivate_iff hissue hid
  · rintro storage db attachmentId attachment issue hstorage hattachment hissue rfl
    exact visible_getForStaff_iff hattachment hissue (hstorage _)
  · rintro db dto issue hissue rfl hselects
    rw [IssuesService.mem_list, scopeAllows_iff_canAccessPlatform hplatform]
    simp [hissue, hselects]
  · intro more hsub
    exact ⟨scopeAllows_of_subset hsub, fun roles => canAccessPlatform_of_subset hsub⟩
  · intro hwatcher
    exact ⟨canAccessPlatform_of_watcher hwatcher, canActivateAnywhere_of_watcher hwatcher⟩

theorem read_paths_agree_watcher :
    let observer : AuthenticatedStaff := ⟨"observer", "local:observer", "Observer", "o@portal", [⟨.watcher, some "web"⟩]⟩
    ScopeService.scopeAllows (ScopeService.scopedPlatformIds observer) "web" = true ∧
      ScopeService.scopeAllows (ScopeService.scopedPlatformIds observer) "erp" = false ∧
      ScopeService.canAccessPlatform observer "web" staffWriteRoles = false := by
  intro observer
  have hweb := read_paths_agree observer "web" (by decide)
  have herp := read_paths_agree observer "erp" (by decide)
  refine ⟨hweb.1.mpr (by decide), ?_, (hweb.2.2.2.2.2 (by decide)).1⟩
  rw [Bool.eq_false_iff, ne_eq, herp.1]
  decide

end Cimp
