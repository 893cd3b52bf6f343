import Cimp.Issues.Assignees
import Cimp.Notifications.Recipients

namespace Cimp

open NotificationsService IssuesService

/-- A notice whose queries all read one state of the database. -/
def Notice.readAll (db : Db) : List StaffQuery → Notice → Notice
  | [], n => n
  | q :: rest, n => readAll db rest (n.found rest (run db n q))

def mentionRows (appUrl : String) (db : Db) (e : IssueEvent) : List NotificationLog :=
  match NotificationsListener.on appUrl db e with
  | none => []
  | some n => (n.readAll db n.queries).logging

namespace CommentsService

variable {db : Db} {staffIds : List Uuid} {platformId id : Uuid}

theorem mem_staffWriteRoles {role : Role} : role ∈ staffWriteRoles ↔ role ≠ .watcher := by cases role <;> decide

theorem mem_platformMemberIds : id ∈ platformMemberIds db staffIds platformId ↔
    id ∈ staffIds ∧ ∃ g ∈ db.roles, g.staffUser = id ∧ g.role ≠ .watcher ∧
      (g.platform = some platformId ∨ g.platform = none) := by
  simp only [platformMemberIds, List.mem_filter, List.any_eq_true, Bool.and_eq_true, Bool.or_eq_true,
    decide_eq_true_eq, mem_staffWriteRoles]
  constructor
  · rintro ⟨hid, g, hg, ⟨hstaff, hplatform⟩, hrole⟩
    exact ⟨hid, g, hg, hstaff, hrole, hplatform⟩
  · rintro ⟨hid, g, hg, hstaff, hrole, hplatform⟩
    exact ⟨hid, g, hg, ⟨hstaff, hplatform⟩, hrole⟩

theorem addComment_healthy {env : Env} (staff : AuthenticatedStaff) {issue : Issue} {cid : Uuid}
    (dto : CreateCommentDto) (henv : env.Healthy) (hissue : db.issues.findOne issue.id = some issue)
    (hfresh : db.comments.findOne cid = none) :
    ∃ db', addComment env staff issue.id dto cid db = .ok (db', commentAdded db' staff issue cid dto) ∧
      (db'.staffUsers, db'.roles) = (db.staffUsers, db.roles) := by
  obtain ⟨comments, hcomments⟩ : ∃ comments,
      db.comments.insert (staffComment env.now staff issue.id cid dto) = some comments := by
    cases hinsert : db.comments.insert (staffComment env.now staff issue.id cid dto) with
    | some comments => exact ⟨comments, rfl⟩
    | none =>
      have htaken := Table.insert_eq_none_iff.mp hinsert
      rw [staffComment, hfresh] at htaken
      cases htaken
  obtain ⟨db', hbody⟩ : ∃ db', Transaction.body env.statement (addStatements env.now staff issue.id cid dto) db =
      some db' := by
    have hquiet : env.statement = fun _ => false := funext henv.2
    cases hvisibility : dto.visibility <;>
      simp [hquiet, addStatements, hvisibility, Transaction.body, Comment.insert, hcomments, Issue.touch,
        AuditService.record]
  have hkeeps : Transaction.Keeps (fun db : Db => (db.staffUsers, db.roles))
      (Transaction.body env.statement (addStatements env.now staff issue.id cid dto)) :=
    Transaction.Keeps.body (keeps_addStatements (fun _ _ => rfl) (fun _ _ => rfl) fun _ _ => rfl) env.statement
  exact ⟨db', by simp [addComment, henv.1, hissue, hbody], hkeeps db db' hbody⟩

def targets (db : Db) (staff : AuthenticatedStaff) (platformId : Uuid) (requested : List Uuid) : List Uuid :=
  (platformMemberIds db (requested.eraseDups.filter fun m => m ≠ staff.id) platformId).eraseDups.filter
    fun m => m ≠ "" ∧ m ≠ staff.id

theorem mem_targets {staff : AuthenticatedStaff} {requested : List Uuid} (hrequested : "" ∉ requested) :
    id ∈ targets db staff platformId requested ↔
      (id ∈ requested ∧ id ≠ staff.id) ∧ ∃ g ∈ db.roles, g.staffUser = id ∧ g.role ≠ .watcher ∧
        (g.platform = some platformId ∨ g.platform = none) := by
  simp only [targets, List.mem_filter, List.mem_eraseDups, mem_platformMemberIds, decide_eq_true_eq]
  constructor
  · rintro ⟨⟨⟨hid, hauthor⟩, hgrant⟩, _⟩
    exact ⟨⟨hid, hauthor⟩, hgrant⟩
  · rintro ⟨⟨hid, hauthor⟩, hgrant⟩
    have hnonempty : id ≠ "" := by
      rintro rfl
      exact hrequested hid
    exact ⟨⟨⟨hid, hauthor⟩, hgrant⟩, hnonempty, hauthor⟩

theorem mentionRows_eq (appUrl : String) (db : Db) {staff : AuthenticatedStaff} (issue : Issue) (cid : Uuid)
    (dto : CreateCommentDto) (hstaff : staff.id ≠ "") :
    mentionRows appUrl db (commentAdded db staff issue cid dto) =
      (db.staffUsers.rows.filter fun u => u.id ∈ targets db staff issue.platform dto.mentionStaffIds
        && u.status = .active).map fun u => ⟨issue.id, u.id, "comment.mention", .inApp, .sent⟩ := by
  have hon : NotificationsListener.on appUrl db (commentAdded db staff issue cid dto) =
      if targets db staff issue.platform dto.mentionStaffIds = [] then none
      else some ⟨issue.id, issue.platform, "comment.mention", .inApp, none, ⟨"", ""⟩,
        [.staffUsers (targets db staff issue.platform dto.mentionStaffIds)], [], none⟩ := by
    simp only [NotificationsListener.on, commentAdded, hstaff, and_false, if_false]
    rfl
  by_cases hnone : targets db staff issue.platform dto.mentionStaffIds = []
  · rw [if_pos hnone] at hon
    simp [mentionRows, hon, hnone]
  · rw [if_neg hnone] at hon
    simp only [mentionRows, hon, Notice.readAll, Notice.found, Notice.recipients, Notice.logging, run, if_true,
      List.nil_append, List.filter_filter, ne_eq, not_true_eq_false, if_false]
    congr 1
    apply List.filter_congr
    intro u _
    rw [Bool.and_comm]

theorem mem_notified {staff : AuthenticatedStaff} {requested : List Uuid} (hrequested : "" ∉ requested) :
    id ∈ (db.staffUsers.rows.filter fun u => u.id ∈ targets db staff platformId requested
        && u.status = .active).map StaffUser.id ↔
      id ∈ requested ∧ id ≠ staff.id ∧ Eligible db platformId (fun role => role ≠ .watcher) id := by
  simp only [List.mem_map, List.mem_filter, Bool.and_eq_true, decide_eq_true_eq, mem_targets hrequested]
  constructor
  · rintro ⟨user, ⟨hrow, ⟨⟨hid, hauthor⟩, g, hg, hstaff, hrole, hplatform⟩, hactive⟩, rfl⟩
    exact ⟨hid, hauthor, ⟨user, Table.findOne_of_mem hrow, hactive⟩, g, hg, hstaff, by simpa using hrole, hplatform⟩
  · rintro ⟨hid, hauthor, ⟨user, hrow, hactive⟩, g, hg, hstaff, hrole, hplatform⟩
    have hkey : user.id = id := Table.findOne_key hrow
    refine ⟨user, ⟨Table.mem_of_findOne hrow, ?_, hactive⟩, hkey⟩
    rw [hkey]
    exact ⟨⟨hid, hauthor⟩, g, hg, hstaff, by simpa using hrole, hplatform⟩

theorem mentions_reach_mentionable (localeCompare : String → String → Int) (appUrl : String) (env : Env) (db : Db)
    (staff : AuthenticatedStaff) (issue : Issue) (cid : Uuid) (dto : CreateCommentDto) (henv : env.Healthy)
    (hissue : db.issues.findOne issue.id = some issue) (hfresh : db.comments.findOne cid = none)
    (hstaff : staff.id ≠ "") (hrequested : "" ∉ dto.mentionStaffIds) :
    ∃ db' e members, addComment env staff issue.id dto cid db = .ok (db', e) ∧
      listPlatformMembers localeCompare db issue.id = .ok members ∧
      (∀ id, id ∈ (mentionRows appUrl db' e).map NotificationLog.recipientRef ↔
        id ∈ dto.mentionStaffIds ∧ id ∈ members.map StaffView.id ∧ id ≠ staff.id) ∧
      ((mentionRows appUrl db' e).map NotificationLog.recipientRef).Nodup ∧
      ∀ row ∈ mentionRows appUrl db' e, row.issue = issue.id ∧ row.trigger = "comment.mention" := by
  obtain ⟨db', hadded, hkeeps⟩ := addComment_healthy staff dto henv hissue hfresh
  obtain ⟨husers, hroles⟩ := Prod.mk.inj hkeeps
  have hmembers : listPlatformMembers localeCompare db issue.id =
      .ok (picker localeCompare (grantees db issue.platform fun role => role ≠ .watcher)) := by
    simp [listPlatformMembers, hissue]
  have hrows := mentionRows_eq appUrl db' issue cid dto hstaff
  have hrefs : (mentionRows appUrl db' (commentAdded db' staff issue cid dto)).map NotificationLog.recipientRef =
      (db'.staffUsers.rows.filter fun u => u.id ∈ targets db' staff issue.platform dto.mentionStaffIds
        && u.status = .active).map StaffUser.id := by
    rw [hrows, List.map_map]
    rfl
  refine ⟨db', _, _, hadded, hmembers, ?_, ?_, ?_⟩
  · intro id
    rw [hrefs, mem_picker, mem_grantees, mem_notified hrequested, eligible_congr husers hroles]
    constructor
    · rintro ⟨hid, hauthor, heligible⟩
      exact ⟨hid, heligible, hauthor⟩
    · rintro ⟨hid, heligible, hauthor⟩
      exact ⟨hid, hauthor, heligible⟩
  · rw [hrefs]
    exact db'.staffUsers.nodup.sublist (List.filter_sublist.map StaffUser.id)
  · intro row hrow
    rw [hrows] at hrow
    obtain ⟨u, _, rfl⟩ := List.mem_map.mp hrow
    exact ⟨rfl, rfl⟩

end CommentsService

namespace Sample

def askDev : CreateCommentDto := ⟨"Have a look", .internal, ["dev", "dev", "watcher", "author", "nobody"]⟩

def commenter : AuthenticatedStaff :=
  ⟨"author", "local:author", "Author", "author@cimp", [⟨.developer, some "P"⟩]⟩

end Sample

theorem CommentsService.mentions_reach_mentionable_askDev :
    ∃ db' e members, addComment { now := 1 } Sample.commenter "issue" Sample.askDev "comment" Sample.assigneeTeam =
        .ok (db', e) ∧
      listPlatformMembers (fun _ _ => 0) Sample.assigneeTeam "issue" = .ok members ∧
      ("watcher" ∈ (mentionRows "https://support" db' e).map NotificationLog.recipientRef →
        "watcher" ∈ members.map StaffView.id) ∧
      ((mentionRows "https://support" db' e).map NotificationLog.recipientRef).Nodup := by
  obtain ⟨db', e, members, hadded, hmembers, hexact, hnodup, _⟩ := mentions_reach_mentionable (fun _ _ => 0)
    "https://support" { now := 1 } Sample.assigneeTeam Sample.commenter Sample.assigneeIssue "comment" Sample.askDev
    ⟨rfl, fun _ => rfl⟩ (by decide) (by decide) (by decide) (by decide)
  exact ⟨db', e, members, hadded, hmembers, fun h => ((hexact "watcher").mp h).2.1, hnodup⟩

end Cimp
