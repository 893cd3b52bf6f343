import Cimp.Notifications.Members

namespace Cimp

open Execution

theorem activeRecipientsFrom_mem {seen : List Uuid} {users : List StaffUser} {u : StaffUser}
    (h : u ∈ NotificationsService.activeRecipientsFrom seen users) :
    u ∈ users ∧ u.email ≠ "" ∧ u.status = .active := by
  induction users generalizing seen with
  | nil => cases h
  | cons v users ih =>
    unfold NotificationsService.activeRecipientsFrom at h
    split at h
    · rename_i hv
      rcases List.mem_cons.mp h with rfl | hlater
      · exact ⟨List.mem_cons_self, hv.1, hv.2.1⟩
      · obtain ⟨hmem, hactive⟩ := ih hlater
        exact ⟨List.mem_cons_of_mem _ hmem, hactive⟩
    · obtain ⟨hmem, hactive⟩ := ih h
      exact ⟨List.mem_cons_of_mem _ hmem, hactive⟩

theorem focalPointsFor_member {db : Db} {platformId : Uuid} {u : StaffUser}
    (h : u ∈ NotificationsService.focalPointsFor db platformId) : Member db u.id platformId := by
  simp only [NotificationsService.focalPointsFor, List.mem_filterMap, List.mem_filter, Bool.and_eq_true,
    decide_eq_true_eq, Option.filter_eq_some_iff] at h
  obtain ⟨g, ⟨hg, _, hplatform⟩, huser, hactive⟩ := h
  rw [Table.findOne_key huser]
  exact ⟨⟨u, huser, hactive⟩, g, hg, rfl, .inr hplatform⟩

theorem Notice.recipients_mem {n : Notice} {people : List StaffUser} {u : StaffUser} (h : u ∈ n.recipients people) :
    u ∈ people ∧ n.Reaches u := by
  unfold Notice.recipients at h
  split at h
  · rename_i hchannel
    obtain ⟨hmem, hactor⟩ := List.mem_filter.mp h
    obtain ⟨hpeople, hemail, hactive⟩ := activeRecipientsFrom_mem hmem
    exact ⟨hpeople, hactive, fun _ => ⟨hemail, of_decide_eq_true hactor⟩⟩
  · rename_i hchannel
    obtain ⟨hmem, hactive⟩ := List.mem_filter.mp h
    refine ⟨hmem, of_decide_eq_true hactive, fun hemail => ?_⟩
    rw [hchannel] at hemail
    cases hemail

structure Notifier where
  db : Db
  events : List IssueEvent
  notices : List Notice
  mails : List (String × MailMessage)

namespace Notifier

inductive Action
  | change (c : Change)
  | notify (k : ℕ)
  | query (j : ℕ) (fails : Bool)
  | mail (j : ℕ) (sent : Bool)
  | log (j : ℕ) (fails : Bool)

def start (db : Db) : Notifier := ⟨db, [], [], []⟩

def put (s : Notifier) (j : ℕ) (n : Notice) : Notifier := { s with notices := s.notices.set j n }

def query (s : Notifier) (j : ℕ) (n : Notice) (fails : Bool) : Notifier :=
  match n.queries with
  | [] => s
  | q :: rest => s.put j (if fails then n.dropped else n.found rest (NotificationsService.run s.db n q))

/-- `dispatch` up to the mail; the recipient stays first in line for the log row. -/
def mail (s : Notifier) (j : ℕ) (n : Notice) (sent : Bool) : Notifier :=
  match n.mailing with
  | none => s
  | some u =>
    { s.put j { n with mailed := some (if sent then .sent else .failed) } with
      mails := s.mails ++ if sent then [(u.email, n.message)] else [] }

def log (s : Notifier) (j : ℕ) (n : Notice) (fails : Bool) : Notifier :=
  if n.logging = [] then s
  else if fails then s.put j n.dropped
  else { s.put j n.logged with db := { s.db with notificationLogs := s.db.notificationLogs ++ n.logging } }

/-- Each event is handed to the listener once. -/
def step (cfg : NotifierConfig) (s : Notifier) : Action → Notifier
  | .change c => { s with db := (c.run cfg s.db).1, events := s.events ++ (c.run cfg s.db).2 }
  | .notify k =>
    match s.events[k]? with
    | none => s
    | some e => { s with
        events := s.events.eraseIdx k
        notices := s.notices ++ (NotificationsListener.on cfg.appUrl s.db e).toList }
  | .query j fails => (s.notices[j]?).elim s fun n => s.query j n fails
  | .mail j sent => (s.notices[j]?).elim s fun n => s.mail j n sent
  | .log j fails => (s.notices[j]?).elim s fun n => s.log j n fails

def Rightful (s : Notifier) : Action → Prop
  | .mail j _ => ∀ n ∈ s.notices[j]?, ∀ u ∈ n.mailing, Member s.db u.id n.platformId
  | .log j fails => fails = false →
      ∀ n ∈ s.notices[j]?, ∀ row ∈ n.logging, Member s.db row.recipientRef n.platformId
  | _ => True

/-- The assignee, the watchers and whoever is assigned or mentioned are members when they are read, and
stay so until they are reached. -/
def ReadsMembers (cfg : NotifierConfig) (s : Notifier) : Action → Prop
  | .notify k => ∀ e ∈ s.events[k]?, ∀ n ∈ NotificationsListener.on cfg.appUrl s.db e,
      ∀ u ∈ n.people, n.Reaches u → Member s.db u.id n.platformId
  | .query j fails => fails = false → ∀ n ∈ s.notices[j]?, ∀ q ∈ n.queries.head?, q ≠ .focalPoints →
      ∀ u ∈ NotificationsService.run s.db n q, n.Reaches u → Member s.db u.id n.platformId
  | .change (.administer env id admin r) => ∀ n ∈ s.notices, ∀ u ∈ n.people, n.Reaches u →
      Member (AdminService.run cfg.auth env id admin r s.db) u.id n.platformId
  | _ => True

instance decidableReadsMembers (cfg : NotifierConfig) (s : Notifier) : (a : Action) → Decidable (ReadsMembers cfg s a)
  | .notify k => inferInstanceAs (Decidable (∀ e ∈ s.events[k]?, ∀ n ∈ NotificationsListener.on cfg.appUrl s.db e,
      ∀ u ∈ n.people, n.Reaches u → Member s.db u.id n.platformId))
  | .query j fails => inferInstanceAs (Decidable (fails = false → ∀ n ∈ s.notices[j]?, ∀ q ∈ n.queries.head?,
      q ≠ .focalPoints → ∀ u ∈ NotificationsService.run s.db n q, n.Reaches u → Member s.db u.id n.platformId))
  | .change (.administer env id admin r) => inferInstanceAs (Decidable (∀ n ∈ s.notices, ∀ u ∈ n.people,
      n.Reaches u → Member (AdminService.run cfg.auth env id admin r s.db) u.id n.platformId))
  | .change (.intake ..) | .change (.request ..) | .change (.bulkUpdate ..) | .change (.automation ..)
  | .change (.watch ..) | .change (.unwatch ..) | .change (.addComment ..) | .change (.reply ..)
  | .change (.breach ..) | .mail _ _ | .log _ _ => isTrue trivial

structure Sound (db : Db) (n : Notice) : Prop where
  members : ∀ u ∈ n.people, n.Reaches u → Member db u.id n.platformId
  settled : n.queries = [] → ∀ u ∈ n.people, n.Reaches u

def Inv (s : Notifier) : Prop := ∀ n ∈ s.notices, Sound s.db n

variable {cfg : NotifierConfig} {s : Notifier} {j : ℕ} {n : Notice}

theorem Sound.dropped (db : Db) (n : Notice) : Sound db n.dropped where
  members _ hu := by cases hu
  settled _ _ hu := by cases hu

theorem Sound.found {db : Db} {rest : List StaffQuery} {users : List StaffUser} (h : Sound db n)
    (husers : ∀ u ∈ users, n.Reaches u → Member db u.id n.platformId) : Sound db (n.found rest users) := by
  have hall : ∀ u ∈ n.people ++ users, n.Reaches u → Member db u.id n.platformId := by
    intro u hu hreaches
    rcases List.mem_append.mp hu with hbefore | hnew
    · exact h.members u hbefore hreaches
    · exact husers u hnew hreaches
  constructor
  · intro u hu hreaches
    simp only [Notice.found] at hu
    split at hu
    · exact hall u (Notice.recipients_mem hu).1 hreaches
    · exact hall u hu hreaches
  · intro hlast u hu
    simp only [Notice.found] at hlast hu
    rw [if_pos hlast] at hu
    exact (Notice.recipients_mem hu).2

theorem Sound.mailed {db : Db} (h : Sound db n) (status : Option NotificationStatus) :
    Sound db { n with mailed := status } := ⟨h.members, h.settled⟩

theorem Sound.logged {db : Db} (h : Sound db n) : Sound db n.logged := by
  unfold Notice.logged
  split
  · exact ⟨fun u hu => h.members u (List.mem_of_mem_drop hu), fun hlast u hu => h.settled hlast u (List.mem_of_mem_drop hu)⟩
  · constructor
    · intro u hu
      cases hu
    · intro _ u hu
      cases hu

theorem Sound.of_staffing {db db' : Db} (h : Sound db n) (hsame : staffing db' = staffing db) : Sound db' n :=
  ⟨fun u hu hreaches => (member_congr hsame).mpr (h.members u hu hreaches), h.settled⟩

theorem put_inv (h : Inv s) (hn : Sound s.db n) : Inv (s.put j n) := by
  intro m hm
  rcases List.mem_or_eq_of_mem_set hm with hold | rfl
  · exact h m hold
  · exact hn

theorem on_queries {appUrl : String} {db : Db} {e : IssueEvent} (h : n ∈ NotificationsListener.on appUrl db e) :
    n.queries ≠ [] := by
  have hmap : ∀ {issueId : Uuid} {f : Issue → Notice}, (∀ issue, (f issue).queries ≠ []) →
      n ∈ (db.issues.findOne issueId).map f → n.queries ≠ [] := by
    intro issueId f hf hn
    obtain ⟨issue, _, rfl⟩ := Option.map_eq_some_iff.mp hn
    exact hf issue
  cases e with
  | created issueId platformId => exact hmap (fun _ => List.cons_ne_nil _ _) h
  | statusChanged issueId platformId old target actorStaffId => exact hmap (fun _ => List.cons_ne_nil _ _) h
  | slaBreached issueId platformId => exact hmap (fun _ => List.cons_ne_nil _ _) h
  | assigned issueId platformId assigneeId actorStaffId =>
    cases assigneeId with
    | none => cases h
    | some assigneeId =>
      simp only [NotificationsListener.on, NotificationsService.notifyAssignee] at h
      split at h
      · cases h
      · exact hmap (fun _ => List.cons_ne_nil _ _) h
  | commentAdded issueId platformId commentId reporterVisible actorStaffId mentionStaffIds =>
    simp only [NotificationsListener.on] at h
    split at h
    · exact hmap (fun _ => List.cons_ne_nil _ _) h
    · simp only [NotificationsService.notifyMentions] at h
      split at h
      · cases h
      · cases h
        exact List.cons_ne_nil _ _
  | priorityChanged issueId platformId old target actorStaffId => cases h
  | merged duplicateIssueId canonicalIssueId platformId actorStaffId => cases h
  | csatReceived issueId platformId score => cases h

theorem notice_sound (h : Inv s) (hn : s.notices[j]? = some n) : Sound s.db n := h n (List.mem_of_getElem? hn)

theorem query_inv (h : Inv s) (hn : s.notices[j]? = some n) {fails : Bool}
    (hreads : fails = false → ∀ q ∈ n.queries.head?, q ≠ .focalPoints → ∀ u ∈ NotificationsService.run s.db n q,
      n.Reaches u → Member s.db u.id n.platformId) : Inv (s.query j n fails) := by
  unfold query
  split
  · exact h
  · rename_i q rest hqueries
    split
    · exact put_inv h (.dropped _ _)
    · rename_i hruns
      refine put_inv h ((notice_sound h hn).found fun u hu hreaches => ?_)
      by_cases hfocal : q = .focalPoints
      · subst hfocal
        exact focalPointsFor_member hu
      · exact hreads (Bool.eq_false_iff.mpr hruns) q (by rw [hqueries]; rfl) hfocal u hu hreaches

theorem change_inv (h : Inv s) (c : Change) (hstays : ReadsMembers cfg s (.change c)) : Inv (step cfg s (.change c)) := by
  intro n hn
  by_cases hadminister : ∃ env id admin r, c = .administer env id admin r
  · obtain ⟨env, id, admin, r, rfl⟩ := hadminister
    exact ⟨hstays n hn, (h n hn).settled⟩
  · refine (h n hn).of_staffing (Change.run_staffing cfg s.db c fun env id admin r hc => ?_)
    exact hadminister ⟨env, id, admin, r, hc⟩

theorem step_inv (s : Notifier) (a : Action) (h : Inv s) (hreads : ReadsMembers cfg s a) : Inv (step cfg s a) := by
  cases a with
  | change c => exact change_inv h c hreads
  | notify k =>
    simp only [step]
    split
    · exact h
    · rename_i e he
      intro n hn
      rcases List.mem_append.mp hn with hold | hnew
      · exact h n hold
      · have hon : n ∈ NotificationsListener.on cfg.appUrl s.db e := Option.mem_toList.mp hnew
        exact ⟨hreads e he n hon, fun hnone => absurd hnone (on_queries hon)⟩
  | query j fails =>
    cases hn : s.notices[j]? with
    | none => simpa only [step, hn, Option.elim_none] using h
    | some n =>
      simp only [step, hn]
      exact query_inv h hn fun hfails => hreads hfails n hn
  | mail j sent =>
    cases hn : s.notices[j]? with
    | none => simpa only [step, hn, Option.elim_none] using h
    | some n =>
      simp only [step, hn, Option.elim_some, mail]
      split
      · exact h
      · exact put_inv h ((notice_sound h hn).mailed _)
  | log j fails =>
    cases hn : s.notices[j]? with
    | none => simpa only [step, hn, Option.elim_none] using h
    | some n =>
      simp only [step, hn, Option.elim_some, log]
      split
      · exact h
      · split
        · exact put_inv h (.dropped _ _)
        · intro m hm
          exact (put_inv h (notice_sound h hn).logged m hm).of_staffing rfl

theorem mailing_mem {u : StaffUser} (h : n.mailing = some u) : n.queries = [] ∧ u ∈ n.people := by
  unfold Notice.mailing at h
  split at h
  · rename_i hready
    exact ⟨hready.1, List.mem_of_head? h⟩
  · cases h

theorem logging_mem {row : NotificationLog} (h : row ∈ n.logging) :
    n.queries = [] ∧ ∃ u ∈ n.people, u.id = row.recipientRef := by
  unfold Notice.logging at h
  split at h
  · cases h
  · rename_i hlast
    rw [not_not] at hlast
    refine ⟨hlast, ?_⟩
    split at h
    · cases h
    · obtain ⟨u, hu, rfl⟩ := List.mem_map.mp h
      exact ⟨u, List.mem_of_mem_take hu, rfl⟩
    · obtain ⟨u, hu, rfl⟩ := List.mem_map.mp h
      exact ⟨u, hu, rfl⟩

theorem rightful_of_inv (s : Notifier) (a : Action) (h : Inv s) : Rightful s a := by
  cases a with
  | mail j sent =>
    intro n hn u hu
    obtain ⟨hlast, hmem⟩ := mailing_mem hu
    exact (notice_sound h hn).members u hmem ((notice_sound h hn).settled hlast u hmem)
  | log j fails =>
    intro _ n hn row hrow
    obtain ⟨hlast, u, hmem, hid⟩ := logging_mem hrow
    rw [← hid]
    exact (notice_sound h hn).members u hmem ((notice_sound h hn).settled hlast u hmem)
  | change c => trivial
  | notify k => trivial
  | query j fails => trivial

/-- Everyone a notification reaches is a member then, in every run in which the people it reads for an
issue are members and none of them leaves before it reaches them. -/
theorem everyStep_rightful_of_readsMembers {db : Db} {as : List Action}
    (h : EveryStep (step cfg) (ReadsMembers cfg) (start db) as) : EveryStep (step cfg) Rightful (start db) as :=
  everyStep_of_everyStep step_inv (fun s a hs _ => rightful_of_inv s a hs) (fun n hn => by cases hn) h

end Notifier

namespace Sample

def printerIssue : Uuid := "11111111-1111-1111-1111-111111111111"

def developer : StaffUser := ⟨"dev", "local:dev@cimp", "Dev", "dev@cimp", none, .active, 1⟩

def developerStaff : AuthenticatedStaff := ⟨"dev", "local:dev@cimp", "Dev", "dev@cimp", [⟨.developer, some "P"⟩]⟩

def team : Db :=
  { Db.empty with
    platforms := ⟨[⟨"P", "P", "Portal", .active⟩], by decide⟩
    staffUsers := ⟨[developer], by decide⟩
    roles := [⟨"dev-role", "dev", some "P", .developer⟩]
    issues := ⟨[ReporterService.newIssue 0 context ⟨"Printer is down", none⟩ "reporter" ⟨printerIssue, "reporter", "P-1"⟩],
      by decide⟩ }

def notifierConfig : NotifierConfig :=
  ⟨config, ⟨true, 28800, id, id, fun password hash => hash = "hash of " ++ password⟩, "https://support"⟩

def startWork : Change := .request { now := 1 } (.changeStatus admin printerIssue ⟨.inProgress, 1⟩)

def revoke : Change := .administer { now := 1 } "unused" admin (.revokeRole "dev-role")

end Sample

namespace Notifier

def notified : List Action := [.notify 0, .query 0 false, .query 0 false, .mail 0 true, .log 0 false]

theorem everyStep_rightful_of_readsMembers_watcher :
    EveryStep (step Sample.notifierConfig) Rightful (start Sample.team)
      (.change (.watch Sample.developerStaff Sample.printerIssue) :: .change Sample.startWork :: notified) :=
  everyStep_rightful_of_readsMembers (by decide)

def formerMember : List Action :=
  [.change (.watch Sample.developerStaff Sample.printerIssue), .change Sample.revoke, .change Sample.startWork,
    .notify 0, .query 0 false, .query 0 false]

theorem former_member_mailed :
    ¬ ∀ (cfg : NotifierConfig) (db : Db) (as : List Action), EveryStep (step cfg) Rightful (start db) as := by
  intro h
  have hmember : ∀ n ∈ (exec (step Sample.notifierConfig) (start Sample.team) formerMember).notices[0]?,
      ∀ u ∈ n.mailing, Member (exec (step Sample.notifierConfig) (start Sample.team) formerMember).db u.id n.platformId :=
    everyStep_iff_initial.mp (h _ _ (formerMember ++ [.mail 0 true])) formerMember (.mail 0 true) List.prefix_rfl
  revert hmember
  decide

end Notifier

end Cimp
