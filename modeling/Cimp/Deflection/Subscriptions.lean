import Cimp.Events
import Cimp.Lib.Drain
import Cimp.Reporter.Intake

namespace Cimp

open Execution

structure ReporterSubscription where
  id : Uuid
  issue : Uuid
  reporter : Uuid
  createdAt : Time
deriving DecidableEq, Repr

structure SubscribeClaims where
  purpose : Option String
  issueId : Option Uuid
  platformId : Option Uuid
deriving DecidableEq, Repr

structure SentMail where
  toAddress : String
  subject : String
  text : String
deriving DecidableEq, Repr

structure Recipient where
  email : String
  platformName : String
deriving DecidableEq, Repr

namespace DeflectionService

def assertSubscribable (ctx : HandoffContext) (claims : Option SubscribeClaims) : Except HttpException Uuid :=
  match claims with
  | none => .error (.unauthorized "Invalid or expired subscribe token.")
  | some claims =>
    match claims.issueId.filter (· ≠ "") with
    | none => .error (.unauthorized "Invalid subscribe token.")
    | some issueId => do
      require (claims.purpose = some "subscribe") (.unauthorized "Invalid subscribe token.")
      require (claims.platformId = some ctx.platformId) (.notFound "Issue not found")
      .ok issueId

def findSubscribed (db : Db) (ctx : HandoffContext) (claims : Option SubscribeClaims) : Except HttpException Issue := do
  let issueId ← assertSubscribable ctx claims
  match (db.issues.findOne issueId).filter fun i => i.platform = ctx.platformId with
  | none => .error (.notFound "Issue not found")
  | some issue => .ok issue

end DeflectionService

namespace DeflectionListener

def resolvedMail (r : Recipient) : Option SentMail :=
  if r.email = "" then none
  else some {
    toAddress := r.email
    subject := "[" ++ r.platformName ++ "] An issue you follow has been resolved"
    text := "Good news — the issue you asked to be notified about on " ++ r.platformName ++ " has been resolved.\n\n" ++
      "If you still see the problem, please raise a new report from the app." }

def resolvedIssue : IssueEvent → Option Uuid
  | .statusChanged issueId _ _ .resolved _ => some issueId
  | _ => none

def recipient (db : Db) (issue : Issue) (s : ReporterSubscription) : Recipient where
  email := ((db.reporters.findOne s.reporter).map Reporter.email).getD ""
  platformName := ((db.platforms.findOne issue.platform).map Platform.name).getD ""

end DeflectionListener

/-- The tables as they were when the listener heard of the issue's resolution. -/
structure Resolution where
  issue : Uuid
  db : Db

/-- `resolved` remembers what the listener has heard of. -/
structure Following where
  db : Db
  drain : Drain.State ReporterSubscription Recipient
  resolved : List Resolution

namespace Following

/-- Each action is a request, or one statement or mail of a fan-out. A fan-out that a statement fails under is
given up, whereas a mail that fails is only logged. The rest of the program keeps the platform of an issue. -/
inductive Action
  | subscribe (ctx : HandoffContext) (claims : Option SubscribeClaims) (reporter id : Uuid) (now : Time)
  | contact (ctx : HandoffContext) (reporter : Uuid)
  | write (issue : Issue)
  | statusChanged (e : IssueEvent)
  | mail (fanOut : ℕ)
  | delete (fanOut : ℕ)
  | giveUp (fanOut : ℕ)

def start (db : Db) : Following := ⟨db, .empty, []⟩

/-- `INSERT ... ON CONFLICT DO NOTHING`, where a pair of an issue and a reporter is unique. -/
def insertOrIgnore (drain : Drain.State ReporterSubscription Recipient) (s : ReporterSubscription) :
    Drain.State ReporterSubscription Recipient :=
  if drain.rows.any fun r => r.issue = s.issue && r.reporter = s.reporter then drain
  else drain.insert ReporterSubscription.id s

def writeIssue (db : Db) (issue : Issue) : Db :=
  match db.issues.findOne issue.id with
  | none => { db with issues := (db.issues.insert issue).getD db.issues }
  | some _ => { db with
      issues := db.issues.update issue.id (fun row => { issue with id := row.id, platform := row.platform }) fun _ => rfl }

def fanOut (s : Following) (issueId : Uuid) : Following :=
  match s.db.issues.findOne issueId with
  | none => s
  | some issue => { s with
      drain := s.drain.load (fun r => r.issue = issueId) (DeflectionListener.recipient s.db issue)
      resolved := s.resolved ++ [⟨issueId, s.db⟩] }

def subscribed (s : Following) (ctx : HandoffContext) (issue : Issue) (reporter id : Uuid) (now : Time) : Following :=
  match ReporterService.upsertReporter ctx reporter s.db with
  | none => s
  | some (db, reporter) => { s with db, drain := insertOrIgnore s.drain ⟨id, issue.id, reporter, now⟩ }

def step (s : Following) : Action → Following
  | .subscribe ctx claims reporter id now =>
    match DeflectionService.findSubscribed s.db ctx claims with
    | .error _ => s
    | .ok issue => s.subscribed ctx issue reporter id now
  | .contact ctx reporter => { s with db := ((ReporterService.upsertReporter ctx reporter s.db).map Prod.fst).getD s.db }
  | .write issue => { s with db := writeIssue s.db issue }
  | .statusChanged e =>
    match DeflectionListener.resolvedIssue e with
    | none => s
    | some issueId => s.fanOut issueId
  | .mail i => { s with drain := s.drain.step ReporterSubscription.id (.handle i) }
  | .delete i => { s with drain := s.drain.step ReporterSubscription.id (.finish i) }
  | .giveUp i => { s with drain := s.drain.step ReporterSubscription.id (.abandon i) }

/-- What the fan-outs have handled of a subscription, and the mails that they have tried to send for it. -/
def handled (s : Following) (id : Uuid) : List (ReporterSubscription × Recipient) := s.drain.log.filter fun e => e.1.id = id

def mailsTo (s : Following) (id : Uuid) : List SentMail :=
  (s.handled id).filterMap fun e => DeflectionListener.resolvedMail e.2

def SamePlatform (db : Db) (r : ReporterSubscription) : Prop :=
  ∃ issue reporter, db.issues.findOne r.issue = some issue ∧ db.reporters.findOne r.reporter = some reporter ∧
    reporter.platform = issue.platform

/-- The issue that the subscription is for was resolved, and the mail goes to the subscriber's address of then. -/
def Addressed (e : ReporterSubscription × Recipient) (r : Resolution) : Prop :=
  r.issue = e.1.issue ∧ ∃ reporter, r.db.reporters.findOne e.1.reporter = some reporter ∧
    (DeflectionListener.resolvedMail e.2).map SentMail.toAddress = if reporter.email = "" then none else some reporter.email

structure Inv (s : Following) : Prop where
  drain : Drain.State.Inv ReporterSubscription.id s.drain
  tenant : ∀ r ∈ s.drain.inserted, SamePlatform s.db r
  unique : (s.drain.rows.map fun r => (r.issue, r.reporter)).Nodup
  addressed : ∀ e, s.drain.Noted e → ∃ r ∈ s.resolved, Addressed e r

structure Extends (db db' : Db) : Prop where
  issues : ∀ k i, db.issues.findOne k = some i → ∃ i', db'.issues.findOne k = some i' ∧ i'.platform = i.platform
  reporters : ∀ k r, db.reporters.findOne k = some r → ∃ r', db'.reporters.findOne k = some r' ∧ r'.platform = r.platform

variable {s : Following} {db db' : Db} {r : ReporterSubscription}

theorem Extends.samePlatform (h : Extends db db') (hr : SamePlatform db r) : SamePlatform db' r := by
  obtain ⟨issue, reporter, hissue, hreporter, hplatform⟩ := hr
  obtain ⟨issue', hissue', hsame⟩ := h.issues _ _ hissue
  obtain ⟨reporter', hreporter', hsame'⟩ := h.reporters _ _ hreporter
  exact ⟨issue', reporter', hissue', hreporter', hsame'.trans (hplatform.trans hsame.symm)⟩

theorem extends_upsertReporter {ctx : HandoffContext} {id reporter : Uuid}
    (h : ReporterService.upsertReporter ctx id db = some (db', reporter)) :
    Extends db db' ∧ ∃ r, db'.reporters.findOne reporter = some r ∧ r.platform = ctx.platformId := by
  unfold ReporterService.upsertReporter at h
  split at h
  · rename_i row hrow
    cases h
    have hmatch := List.find?_some hrow
    simp only [Bool.and_eq_true, decide_eq_true_eq] at hmatch
    have hself := Table.findOne_of_mem (List.mem_of_find?_eq_some hrow)
    have hfind := Table.findOne_update db.reporters row.id (ReporterService.refreshed ctx) fun _ => rfl
    refine ⟨⟨fun k i hi => ⟨i, hi, rfl⟩, fun k r hr => ?_⟩, ?_⟩
    · have hk := hfind k
      rw [hr] at hk
      split at hk
      · exact ⟨_, hk, rfl⟩
      · exact ⟨r, hk, rfl⟩
    · have hk := hfind row.id
      rw [if_pos rfl, hself] at hk
      exact ⟨_, hk, hmatch.1⟩
  · obtain ⟨reporters, hinsert, heq⟩ := Option.map_eq_some_iff.mp h
    cases heq
    have hfind := Table.findOne_insert hinsert
    refine ⟨⟨fun k i hi => ⟨i, hi, rfl⟩, fun k r hr => ⟨r, ?_, rfl⟩⟩, ⟨_, (hfind id).trans (if_pos rfl), rfl⟩⟩
    have hne : k ≠ id := by
      rintro rfl
      rw [Table.insert_fresh hinsert] at hr
      cases hr
    exact (hfind k).trans ((if_neg hne).trans hr)

theorem extends_writeIssue (db : Db) (issue : Issue) : Extends db (writeIssue db issue) := by
  unfold writeIssue
  split
  · rename_i hnone
    refine ⟨fun k i hi => ⟨i, ?_, rfl⟩, fun k r hr => ⟨r, hr, rfl⟩⟩
    cases hinsert : db.issues.insert issue with
    | none => exact hi
    | some issues =>
      have hne : k ≠ issue.id := by
        rintro rfl
        rw [hnone] at hi
        cases hi
      exact (Table.findOne_insert hinsert k).trans ((if_neg hne).trans hi)
  · refine ⟨fun k i hi => ?_, fun k r hr => ⟨r, hr, rfl⟩⟩
    have hk := Table.findOne_update db.issues issue.id
      (fun row => { issue with id := row.id, platform := row.platform }) (fun _ => rfl) k
    rw [hi] at hk
    split at hk
    · exact ⟨_, hk, rfl⟩
    · exact ⟨i, hk, rfl⟩

theorem Inv.withDb (hs : Inv s) (h : Extends s.db db) : Inv { s with db } :=
  ⟨hs.drain, fun r hr => h.samePlatform (hs.tenant r hr), hs.unique, hs.addressed⟩

theorem Inv.insertOrIgnore (hs : Inv s) (hr : SamePlatform s.db r) : Inv { s with drain := insertOrIgnore s.drain r } := by
  unfold Following.insertOrIgnore
  split
  · exact hs
  · rename_i hnew
    simp only [List.any_eq_true, Bool.and_eq_true, decide_eq_true_eq, not_exists, not_and] at hnew
    have hnoted : ∀ e, (s.drain.insert ReporterSubscription.id r).Noted e → ∃ q ∈ s.resolved, Addressed e q :=
      fun e he => hs.addressed e ((Drain.State.noted_insert _ r e).mp he)
    refine ⟨hs.drain.insert r, ?_, ?_, hnoted⟩ <;> unfold Drain.State.insert <;> split
    · exact hs.tenant
    · intro q hq
      obtain hold | rfl := List.mem_append.mp hq |>.imp_right List.mem_singleton.mp
      · exact hs.tenant q hold
      · exact hr
    · exact hs.unique
    · rw [List.map_append, List.map_singleton]
      apply List.nodup_append.mpr
      refine ⟨hs.unique, List.nodup_singleton _, ?_⟩
      intro p hp p' hp' heq
      obtain ⟨q, hq, rfl⟩ := List.mem_map.mp hp
      rw [List.mem_singleton.mp hp', Prod.mk.injEq] at heq
      exact hnew q hq heq.1 heq.2

theorem Inv.work (hs : Inv s) {drain : Drain.State ReporterSubscription Recipient}
    (hdrain : Drain.State.Inv ReporterSubscription.id drain) (h : Drain.State.Worked s.drain drain) :
    Inv { s with drain } := by
  refine ⟨hdrain, ?_, hs.unique.sublist (h.rows.map _), fun e he => hs.addressed e (h.noted e he)⟩
  intro r hr
  exact hs.tenant r (h.inserted ▸ hr)

theorem toAddress_resolvedMail (r : Recipient) :
    (DeflectionListener.resolvedMail r).map SentMail.toAddress = if r.email = "" then none else some r.email := by
  unfold DeflectionListener.resolvedMail
  split_ifs <;> rfl

theorem Inv.fanOut (hs : Inv s) (issueId : Uuid) : Inv (s.fanOut issueId) := by
  unfold Following.fanOut
  split
  · exact hs
  · rename_i issue hissue
    refine ⟨hs.drain.load _ _, ?_, ?_, fun e he => ?_⟩
    · rw [Drain.State.load]
      split <;> exact hs.tenant
    · rw [Drain.State.load]
      split <;> exact hs.unique
    · obtain hold | ⟨hrow, hfor, hnote⟩ := Drain.State.noted_load he
      · obtain ⟨r, hr, haddressed⟩ := hs.addressed e hold
        exact ⟨r, List.mem_append_left _ hr, haddressed⟩
      · obtain ⟨-, reporter, -, hreporter, -⟩ := hs.tenant e.1 (hs.drain.rows.subset hrow)
        refine ⟨_, List.mem_append_right _ List.mem_cons_self, (of_decide_eq_true hfor).symm, reporter, hreporter, ?_⟩
        rw [toAddress_resolvedMail, hnote, DeflectionListener.recipient, hreporter]
        rfl

theorem findSubscribed_ok {ctx : HandoffContext} {claims : Option SubscribeClaims} {issue : Issue}
    (h : DeflectionService.findSubscribed db ctx claims = .ok issue) :
    db.issues.findOne issue.id = some issue ∧ issue.platform = ctx.platformId := by
  obtain ⟨issueId, -, hfound⟩ := bind_ok h
  split at hfound
  · cases hfound
  · rename_i found hfind
    cases hfound
    obtain ⟨hissue, hplatform⟩ := Option.filter_eq_some_iff.mp hfind
    exact ⟨Table.findOne_self hissue, of_decide_eq_true hplatform⟩

theorem Inv.subscribed (hs : Inv s) {ctx : HandoffContext} {issue : Issue} (hissue : s.db.issues.findOne issue.id = some issue)
    (hplatform : issue.platform = ctx.platformId) (reporter id : Uuid) (now : Time) :
    Inv (s.subscribed ctx issue reporter id now) := by
  unfold Following.subscribed
  split
  · exact hs
  · rename_i db reporter hupsert
    obtain ⟨hextends, row, hrow, hsame⟩ := extends_upsertReporter hupsert
    obtain ⟨issue', hissue', hplatform'⟩ := hextends.issues _ _ hissue
    have hdb := hs.withDb hextends
    refine hdb.insertOrIgnore ⟨issue', row, hissue', hrow, ?_⟩
    rw [hsame, hplatform', hplatform]

theorem step_inv (s : Following) (a : Action) (hs : Inv s) : Inv (step s a) := by
  cases a with
  | subscribe ctx claims reporter id now =>
    simp only [step]
    split
    · exact hs
    · rename_i issue hfound
      obtain ⟨hissue, hplatform⟩ := findSubscribed_ok hfound
      exact hs.subscribed hissue hplatform reporter id now
  | contact ctx reporter =>
    simp only [step]
    cases hupsert : ReporterService.upsertReporter ctx reporter s.db with
    | none => exact hs
    | some r => exact hs.withDb (extends_upsertReporter hupsert).1
  | write issue => exact hs.withDb (extends_writeIssue s.db issue)
  | statusChanged e =>
    simp only [step]
    split
    · exact hs
    · exact hs.fanOut _
  | mail i => exact hs.work (Drain.State.step_inv _ _ hs.drain) (Drain.State.worked_handle _ i)
  | delete i => exact hs.work (Drain.State.step_inv _ _ hs.drain) (Drain.State.worked_finish _ i)
  | giveUp i => exact hs.work (Drain.State.step_inv _ _ hs.drain) (Drain.State.worked_abandon _ i)

theorem start_inv (db : Db) : Inv (start db) := by
  refine ⟨Drain.State.empty_inv, ?_, List.nodup_nil, ?_⟩
  · intro r hr
    cases hr
  · rintro e (he | ⟨j, hj, -⟩)
    · cases he
    · cases hj

/-- No fan-out begins over an issue for whose subscribers another is under way, and none is given up after its
first mail. -/
def Alone (s : Following) : Action → Prop
  | .statusChanged e => ∀ issueId ∈ DeflectionListener.resolvedIssue e, ∀ j ∈ s.drain.jobs, ∀ r ∈ j.rows, r.issue ≠ issueId
  | .giveUp i => ∀ j ∈ s.drain.jobs[i]?, j.done = []
  | _ => True

theorem step_once (s : Following) (a : Action) (hs : Inv s ∧ Drain.State.Once s.drain) (ha : Alone s a) :
    Inv (step s a) ∧ Drain.State.Once (step s a).drain := by
  obtain ⟨hinv, honce⟩ := hs
  refine ⟨step_inv s a hinv, ?_⟩
  have hdrain : ∀ action, Drain.State.Undisturbed s.drain action →
      Drain.State.Once (s.drain.step ReporterSubscription.id action) := fun action haction =>
    (Drain.State.step_once s.drain action ⟨hinv.drain, honce⟩ haction).2
  cases a with
  | subscribe ctx claims reporter id now =>
    simp only [step]
    split
    · exact honce
    · unfold Following.subscribed
      split
      · exact honce
      · simp only [insertOrIgnore]
        split
        · exact honce
        · exact hdrain (.insert _) trivial
  | contact ctx reporter => exact honce
  | write issue => exact honce
  | statusChanged e =>
    simp only [step]
    split
    · exact honce
    · rename_i issueId hresolved
      unfold Following.fanOut
      split
      · exact honce
      · exact hdrain (.load _ _) fun j hj r hr => decide_eq_false (ha issueId hresolved j hj r hr)
  | mail i => exact hdrain (.handle i) trivial
  | delete i => exact hdrain (.finish i) trivial
  | giveUp i => exact hdrain (.abandon i) ha

theorem handled_length (hinv : Inv s) (honce : Drain.State.Once s.drain) (id : Uuid) : (s.handled id).length ≤ 1 := by
  have hnodup : ((s.handled id).map Prod.fst).Nodup :=
    (List.nodup_append.mp honce.once).1.sublist (List.filter_sublist.map _)
  have hsame : ∀ e ∈ s.handled id, ∀ f ∈ s.handled id, e.1 = f.1 := by
    intro e he f hf
    obtain ⟨helog, heid⟩ := List.mem_filter.mp he
    obtain ⟨hflog, hfid⟩ := List.mem_filter.mp hf
    exact List.inj_on_of_nodup_map hinv.drain.keys (hinv.drain.logged e helog) (hinv.drain.logged f hflog)
      ((of_decide_eq_true heid).trans (of_decide_eq_true hfid).symm)
  cases hlist : s.handled id with
  | nil => exact Nat.zero_le _
  | cons e rest =>
    cases rest with
    | nil => exact Nat.le_refl _
    | cons f rest =>
      rw [hlist] at hnodup hsame
      have heq := hsame e List.mem_cons_self f (List.mem_cons_of_mem _ List.mem_cons_self)
      rw [List.map_cons, List.map_cons, List.nodup_cons, heq] at hnodup
      exact absurd List.mem_cons_self hnodup.1

/-- No subscription is mailed for twice, and one that is gone was handled once. -/
structure OnceEach (s : Following) : Prop where
  atMost : ∀ id, (s.mailsTo id).length ≤ 1
  gone : ∀ r ∈ s.drain.inserted, r ∉ s.drain.rows → ∃ recipient, s.handled r.id = [(r, recipient)]

theorem onceEach (hinv : Inv s) (honce : Drain.State.Once s.drain) : OnceEach s := by
  constructor
  · intro id
    exact Nat.le_trans (List.length_filterMap_le _ _) (handled_length hinv honce id)
  · intro r hr hgone
    obtain hrow | ⟨recipient, hlog⟩ := hinv.drain.kept r hr
    · exact absurd hrow hgone
    · have hmem : (r, recipient) ∈ s.handled r.id := List.mem_filter.mpr ⟨hlog, decide_eq_true rfl⟩
      have hle := handled_length hinv honce r.id
      have hpos := List.length_pos_of_mem hmem
      obtain ⟨e, he⟩ := List.length_eq_one_iff.mp (show (s.handled r.id).length = 1 by omega)
      rw [he, List.mem_singleton] at hmem
      exact ⟨recipient, hmem ▸ he⟩

/-- Fan-outs that keep out of each other's way mail for a subscription once. -/
theorem always_onceEach (db : Db) {as : List Action} (h : EveryStep step Alone (start db) as) :
    Always step OnceEach (start db) as :=
  (always_of_everyStep step_once ⟨start_inv db, Drain.State.empty_once⟩ h).mono fun _ hs => onceEach hs.1 hs.2

end Following

namespace Sample

def followed : Db :=
  { Db.empty with
    issues := ⟨[ReporterService.newIssue 0 context ⟨"It does not work", none⟩ "asker" ⟨"issue", "asker", "CBS-1"⟩],
      List.nodup_singleton _⟩ }

def follow : Following.Action :=
  .subscribe context (some ⟨some "subscribe", some "issue", some "P"⟩) "follower" "subscription" 5

def resolve : Following.Action := .statusChanged (.statusChanged "issue" "P" .inProgress .resolved "dev")

end Sample

namespace Following

instance (s : Following) (a : Action) : Decidable (Alone s a) :=
  match a with
  | .statusChanged e => inferInstanceAs (Decidable (∀ issueId ∈ DeflectionListener.resolvedIssue e, _))
  | .giveUp i => inferInstanceAs (Decidable (∀ j ∈ s.drain.jobs[i]?, _))
  | .subscribe .. => .isTrue trivial
  | .contact .. => .isTrue trivial
  | .write _ => .isTrue trivial
  | .mail _ => .isTrue trivial
  | .delete _ => .isTrue trivial

theorem always_onceEach_resolvedTwice :
    Always step OnceEach (start Sample.followed)
      [Sample.follow, Sample.resolve, .mail 0, .delete 0, Sample.resolve, .delete 0] :=
  always_onceEach Sample.followed (by decide)

end Following

end Cimp
