import Cimp.Issues.FanOut
import Cimp.Reporter.Portal

namespace Cimp

open Execution Transaction

inductive CommentWrite
  | staff (author : AuthenticatedStaff) (issueId : Uuid) (dto : CreateCommentDto)
  | reply (ctx : HandoffContext) (reporter : Reporter) (issueId : Uuid) (text : String)
  | fanOut (duplicates : List Issue)

namespace CommentWrite

def statements (now : Time) (ids : Uuid → Uuid) : CommentWrite → List (Statement Db)
  | .staff author issueId dto => CommentsService.addStatements now author issueId (ids issueId) dto
  | .reply ctx reporter issueId text => ReporterService.replyStatements now ctx reporter issueId (ids issueId) text
  | .fanOut duplicates => MergeService.fanOutStatements now ids duplicates

def informs : CommentWrite → List Uuid
  | .staff _ issueId dto => if dto.visibility = .reporterVisible then [issueId] else []
  | .reply _ _ issueId _ => [issueId]
  | .fanOut duplicates => duplicates.map Issue.id

end CommentWrite

inductive CommentRequest
  | staff (author : AuthenticatedStaff) (issueId : Uuid) (dto : CreateCommentDto)
  | reply (ctx : HandoffContext) (issueId : Uuid) (text : String)
  | statusChanged (evt : IssueEvent)

/-- What a request reads before its transaction; `none` is one that opens no transaction. -/
def CommentRequest.load (db : Db) : CommentRequest → Option CommentWrite
  | .staff author issueId dto => (db.issues.findOne issueId).map fun _ => .staff author issueId dto
  | .reply ctx issueId text =>
    (ReporterService.findOwn db ctx issueId).toOption.map fun own => .reply ctx own.1 issueId text
  | .statusChanged evt =>
    (evt.resolves.map (MergeService.duplicatesOf db)).bind fun duplicates =>
      if duplicates = [] then none else some (.fanOut duplicates)

/-- Inside a transaction `now()` is the time the transaction began. `unread` marks the issues on which
a comment for the reporter was committed after they last marked the issue as seen. -/
structure Portal where
  db : Db
  clock : Time
  inFlight : ℕ → Option (Time × CommentWrite)
  unread : Uuid → Bool

namespace Portal

inductive Action
  | tick (d : ℕ)
  | begin (slot : ℕ) (r : CommentRequest)
  | commit (slot : ℕ) (fails : ℕ → Bool) (ids : Uuid → Uuid)
  | markSeen (env : Env) (ctx : HandoffContext) (issueId : Uuid)

def start (db : Db) (clock : Time) : Portal := ⟨db, clock, fun _ => none, fun _ => false⟩

def hold (s : Portal) (slot : ℕ) (w : Option (Time × CommentWrite)) : Portal :=
  { s with inFlight := Function.update s.inFlight slot w }

def step (s : Portal) : Action → Portal
  | .tick d => { s with clock := s.clock + d }
  | .begin slot r =>
    match r.load s.db with
    | none => s
    | some w => s.hold slot (some (s.clock, w))
  | .commit slot fails ids =>
    match s.inFlight slot with
    | none => s
    | some (begun, w) =>
      match body fails (w.statements begun ids) s.db with
      | none => s.hold slot none
      | some db => { s.hold slot none with db, unread := fun i => i ∈ w.informs || s.unread i }
  | .markSeen env ctx issueId =>
    match ReporterService.markSeen { env with now := s.clock } ctx issueId s.db with
    | .error _ => s
    | .ok db => { s with db, unread := Function.update s.unread issueId false }

def Flagged (s : Portal) : Prop :=
  ∀ ctx, ∀ entry ∈ ReporterService.listForReporter s.db ctx, s.unread entry.id = true → entry.hasUpdates = true

/-- A comment for a reporter is committed by a transaction that began after the reporter last looked. -/
def BeginsAfterView (s : Portal) : Action → Prop
  | .commit slot fails ids => ∀ p ∈ s.inFlight slot, (body fails (p.2.statements p.1 ids) s.db).isSome = true →
      ∀ ctx, ∀ reporter ∈ ReporterService.findReporter s.db ctx, ∀ i ∈ p.2.informs, ∀ row ∈ s.db.issues.findOne i,
        row.reporter = reporter.id → ∀ seen ∈ ReporterService.lastViewed s.db reporter.id i, seen < p.1
  | _ => True

def stamp (db : Db) (i : Uuid) : Option (Uuid × Time) := (db.issues.findOne i).map fun row => (row.reporter, row.updatedAt)

structure Bumps (now : Time) (ids : List Uuid) (db db' : Db) : Prop where
  views : db'.views = db.views
  reporters : db'.reporters = db.reporters
  stamp : ∀ i, stamp db' i = (stamp db i).map fun p => (p.1, if i ∈ ids then now else p.2)

variable {db db' : Db} {now : Time} {ids : List Uuid} {s : Portal}

theorem Bumps.refl (now : Time) (db : Db) : Bumps now [] db db :=
  ⟨rfl, rfl, fun i => by cases h : Portal.stamp db i <;> simp⟩

theorem Bumps.trans {db'' : Db} {ids' : List Uuid} (h : Bumps now ids db db') (h' : Bumps now ids' db' db'') :
    Bumps now (ids ++ ids') db db'' := by
  refine ⟨h'.views.trans h.views, h'.reporters.trans h.reporters, fun i => ?_⟩
  rw [h'.stamp, h.stamp, Option.map_map]
  congr 1
  funext p
  simp only [Function.comp_apply, List.mem_append]
  by_cases hlater : i ∈ ids'
  · simp [hlater]
  · simp [hlater]

theorem Bumps.of_issues (hviews : db'.views = db.views) (hreporters : db'.reporters = db.reporters)
    (hissues : db'.issues = db.issues) : Bumps now [] db db' := by
  refine ⟨hviews, hreporters, fun i => ?_⟩
  have hstamp : Portal.stamp db' i = Portal.stamp db i := by simp only [Portal.stamp, hissues]
  rw [hstamp]
  cases Portal.stamp db i <;> simp

theorem bumps_insert {c : Comment} (h : c.insert db = some db') : Bumps now [] db db' := by
  obtain ⟨comments, _, rfl⟩ := Option.map_eq_some_iff.mp h
  exact .of_issues rfl rfl rfl

theorem bumps_record {a : AuditInput} {at' : Time} (h : AuditService.record at' a db = some db') :
    Bumps now [] db db' := by
  cases h
  exact .of_issues rfl rfl rfl

theorem bumps_touch {id : Uuid} (h : Issue.touch now id db = some db') : Bumps now [id] db db' := by
  have hfind := findOne_touch h
  cases h
  refine ⟨rfl, rfl, fun i => ?_⟩
  rw [stamp, hfind, stamp]
  by_cases hi : i = id
  · rw [if_pos hi, Option.map_map, Option.map_map]
    congr 1
    funext row
    simp [hi, Issue.touched]
  · rw [if_neg hi, Option.map_map]
    congr 1
    funext row
    simp [hi]

theorem bumps_fanOut {fails : ℕ → Bool} {news : Uuid → Uuid} (duplicates : List Issue)
    (h : body fails (MergeService.fanOutStatements now news duplicates) db = some db') :
    Bumps now (duplicates.map Issue.id) db db' := by
  induction duplicates generalizing fails db with
  | nil =>
    cases h
    exact .refl now _
  | cons dup rest ih =>
    obtain ⟨m, hm, h⟩ := body_cons h
    obtain ⟨m', hm', h⟩ := body_cons h
    exact ((bumps_insert hm).trans (bumps_touch hm')).trans (ih h)

theorem bumps_statements {fails : ℕ → Bool} {news : Uuid → Uuid} {w : CommentWrite}
    (h : body fails (w.statements now news) db = some db') : Bumps now w.informs db db' := by
  cases w with
  | staff author issueId dto =>
    simp only [CommentWrite.statements, CommentsService.addStatements] at h
    obtain ⟨m, hm, h⟩ := body_cons h
    simp only [CommentWrite.informs]
    split at h
    · rename_i hvisible
      obtain ⟨m', hm', hm''⟩ := body_two h
      rw [if_pos hvisible]
      exact ((bumps_insert hm).trans (bumps_touch hm')).trans (bumps_record hm'')
    · rename_i hinternal
      rw [if_neg hinternal]
      exact (bumps_insert hm).trans (bumps_record (body_one h))
  | reply ctx reporter issueId text =>
    obtain ⟨m, hm, h⟩ := body_cons h
    obtain ⟨m', hm', hm''⟩ := body_two h
    exact ((bumps_insert hm).trans (bumps_touch hm')).trans (bumps_record hm'')
  | fanOut duplicates => exact bumps_fanOut duplicates h

theorem flagged_iff : Flagged s ↔ ∀ ctx, ∀ reporter ∈ ReporterService.findReporter s.db ctx, ∀ i updatedAt,
    stamp s.db i = some (reporter.id, updatedAt) → s.unread i = true →
      ∀ seen ∈ ReporterService.lastViewed s.db reporter.id i, seen < updatedAt := by
  constructor
  · intro h ctx reporter hreporter i updatedAt hstamp hunread
    obtain ⟨row, hrow, hstored⟩ := Option.map_eq_some_iff.mp hstamp
    obtain ⟨hown, rfl⟩ := Prod.mk.inj hstored
    have hid := Table.findOne_key hrow
    have hlisted : ReporterService.summary s.db reporter.id row ∈ ReporterService.listForReporter s.db ctx := by
      unfold ReporterService.listForReporter
      rw [Option.mem_def.mp hreporter]
      refine List.mem_map_of_mem ((List.mem_insertionSort _).mpr ?_)
      exact List.mem_filter.mpr ⟨Table.mem_of_findOne hrow, decide_eq_true hown⟩
    have hflag := h ctx _ hlisted (by simpa [ReporterService.summary, hid] using hunread)
    simpa [ReporterService.summary, Option.all_eq_true, hid] using hflag
  · intro h ctx entry hentry hunread
    unfold ReporterService.listForReporter at hentry
    split at hentry
    · cases hentry
    · rename_i reporter hreporter
      obtain ⟨row, hrow, rfl⟩ := List.mem_map.mp hentry
      obtain ⟨hmem, hown⟩ := List.mem_filter.mp ((List.mem_insertionSort _).mp hrow)
      have hstamp : stamp s.db row.id = some (reporter.id, row.updatedAt) := by
        rw [stamp, Table.findOne_of_mem hmem, Option.map_some, of_decide_eq_true hown]
      have hseen := h ctx reporter hreporter row.id row.updatedAt hstamp hunread
      simpa [ReporterService.summary, Option.all_eq_true] using hseen

theorem commit_flagged_iff {w : CommentWrite} (hflagged : Flagged s) (hbumps : Bumps now w.informs s.db db')
    (slot : ℕ) :
    Flagged { s.hold slot none with db := db', unread := fun i => i ∈ w.informs || s.unread i } ↔
      ∀ ctx, ∀ reporter ∈ ReporterService.findReporter s.db ctx, ∀ i ∈ w.informs, ∀ row ∈ s.db.issues.findOne i,
        row.reporter = reporter.id → ∀ seen ∈ ReporterService.lastViewed s.db reporter.id i, seen < now := by
  have hreporter : ∀ ctx, ReporterService.findReporter db' ctx = ReporterService.findReporter s.db ctx := by
    intro ctx
    simp only [ReporterService.findReporter, hbumps.reporters]
  have hviewed : ∀ r i, ReporterService.lastViewed db' r i = ReporterService.lastViewed s.db r i := by
    intro r i
    simp only [ReporterService.lastViewed, hbumps.views]
  rw [flagged_iff] at hflagged ⊢
  simp only [hreporter, hviewed, hbumps.stamp]
  constructor
  · intro h ctx reporter hfound i hi row hrow hown
    refine h ctx reporter hfound i now ?_ (by simp [hi])
    rw [stamp, Option.mem_def.mp hrow, Option.map_some, Option.map_some, if_pos hi, hown]
  · intro h ctx reporter hfound i updatedAt hstamp hunread
    obtain ⟨p, hp, hafter⟩ := Option.map_eq_some_iff.mp hstamp
    obtain ⟨row, hrow, rfl⟩ := Option.map_eq_some_iff.mp hp
    obtain ⟨hown, rfl⟩ := Prod.mk.inj hafter
    by_cases hi : i ∈ w.informs
    · rw [if_pos hi]
      exact h ctx reporter hfound i hi row hrow hown
    · rw [if_neg hi]
      refine hflagged ctx reporter hfound i row.updatedAt ?_ (by simpa [hi] using hunread)
      rw [hp, ← hown]

theorem saveView_cases {reporterId issueId : Uuid} (h : ReporterService.saveView now reporterId issueId db = some db') :
    db' = { db with views := db'.views } ∧ (db'.views = db.views ++ [⟨reporterId, issueId, now⟩] ∨
      db'.views = db.views.map fun v => if v.reporter = reporterId ∧ v.issue = issueId then { v with lastViewedAt := now } else v) := by
  unfold ReporterService.saveView at h
  split at h
  · cases h
    exact ⟨rfl, .inl rfl⟩
  · cases h
    exact ⟨rfl, .inr rfl⟩

theorem lastViewed_saveView {reporterId issueId r i : Uuid}
    (h : ReporterService.saveView now reporterId issueId db = some db') (hother : i ≠ issueId) :
    ReporterService.lastViewed db' r i = ReporterService.lastViewed db r i := by
  unfold ReporterService.lastViewed
  rcases (saveView_cases h).2 with hviews | hviews
  · rw [hviews, List.find?_append]
    simp [hother.symm]
  · let seen (v : ReporterIssueView) : ReporterIssueView :=
      if v.reporter = reporterId ∧ v.issue = issueId then { v with lastViewedAt := now } else v
    have hmatch : (fun v => decide (v.reporter = r) && decide (v.issue = i)) ∘ seen =
        fun v => decide (v.reporter = r) && decide (v.issue = i) := by
      funext v
      simp only [seen, Function.comp_apply]
      split <;> rfl
    rw [hviews, List.find?_map, hmatch, Option.map_map]
    cases hview : db.views.find? fun v => decide (v.reporter = r) && decide (v.issue = i) with
    | none => rfl
    | some v =>
      have hissue : v.issue = i := by
        have hboth := List.find?_some hview
        simp only [Bool.and_eq_true, decide_eq_true_eq] at hboth
        exact hboth.2
      have hsame : seen v = v := if_neg fun h => hother (hissue.symm.trans h.2)
      exact congrArg (fun w : ReporterIssueView => some w.lastViewedAt) hsame

theorem markSeen_ok {env : Env} {ctx : HandoffContext} {issueId : Uuid}
    (h : ReporterService.markSeen env ctx issueId db = .ok db') :
    ∃ reporterId, ReporterService.saveView env.now reporterId issueId db = some db' := by
  unfold ReporterService.markSeen at h
  split at h
  · cases h
  · obtain ⟨⟨reporter, issue⟩, hown, h⟩ := bind_ok h
    dsimp only at h
    split at h
    · cases h
    · rename_i saved hsaved
      cases h
      rw [← Table.findOne_key (ReporterService.findOwn_ok hown).2.1]
      exact ⟨reporter.id, body_one hsaved⟩

theorem markSeen_flagged {reporterId issueId : Uuid} (hflagged : Flagged s)
    (h : ReporterService.saveView now reporterId issueId s.db = some db') :
    Flagged { s with db := db', unread := Function.update s.unread issueId false } := by
  rw [flagged_iff] at hflagged ⊢
  obtain ⟨hrest, _⟩ := saveView_cases h
  intro ctx reporter hreporter i updatedAt hstamp hunread
  simp only at hunread
  by_cases hi : i = issueId
  · subst hi
    simp at hunread
  · rw [Function.update_of_ne hi] at hunread
    simp only [lastViewed_saveView h hi]
    rw [hrest] at hreporter hstamp
    exact hflagged ctx reporter hreporter i updatedAt hstamp hunread

theorem step_flagged_iff (a : Action) (h : Flagged s) : Flagged (step s a) ↔ BeginsAfterView s a := by
  cases a with
  | tick d => exact iff_of_true h trivial
  | begin slot r =>
    refine iff_of_true ?_ trivial
    simp only [step]
    split <;> exact h
  | commit slot fails ids =>
    simp only [step, BeginsAfterView]
    cases hw : s.inFlight slot with
    | none => simpa using h
    | some p =>
      obtain ⟨begun, w⟩ := p
      simp only [Option.mem_some_iff, forall_eq']
      cases hcommit : body fails (w.statements begun ids) s.db with
      | none =>
        apply iff_of_true h
        intro hnone
        cases hnone
      | some db' => simpa using commit_flagged_iff h (bumps_statements hcommit) slot
  | markSeen env ctx issueId =>
    refine iff_of_true ?_ trivial
    simp only [step]
    split
    · exact h
    · rename_i db' hdb'
      obtain ⟨reporterId, hsave⟩ := markSeen_ok hdb'
      exact markSeen_flagged h hsave

/-- Whatever a reporter has not seen is flagged, along the whole run, exactly when every comment for
them is committed by a transaction that began after they last looked. -/
theorem always_flagged_iff_beginsAfterView (db : Db) (clock : Time) (as : List Action) :
    Always step Flagged (start db clock) as ↔ EveryStep step BeginsAfterView (start db clock) as :=
  always_iff_everyStep (I := fun _ => True) (fun _ _ h => h) (fun _ a _ h => step_flagged_iff a h) trivial
    (fun _ _ _ hunread => by cases hunread) as

end Portal

namespace Sample

def asker : Reporter := ⟨"asker", "cbs", "u-1", "Ama", "ama@bank"⟩

def session : HandoffContext := ⟨"cbs", "u-1", "Ama", "ama@bank", none⟩

def raised : Db :=
  { Db.empty with
    reporters := ⟨[asker], by decide⟩
    issues := ⟨[ReporterService.newIssue 0 session ⟨"ATM is down", none⟩ "asker" ⟨"issue", "asker", "CBS-1"⟩], by decide⟩ }

def answerer : AuthenticatedStaff := ⟨"dev", "local:dev@cimp", "Dev", "dev@cimp", [⟨.developer, some "cbs"⟩]⟩

end Sample

namespace Portal

def lookDuringComment : List Action :=
  [.tick 10, .begin 0 (.staff Sample.answerer "issue" ⟨"Fixed", .reporterVisible, []⟩), .tick 10,
    .markSeen { now := 0 } Sample.session "issue", .tick 10, .commit 0 (fun _ => false) fun _ => "comment"]

theorem comment_unflagged : ¬ ∀ (db : Db) (clock : Time) (as : List Action), Always step Flagged (start db clock) as := by
  intro h
  have hfinal := (h Sample.raised 0 lookDuringComment).final Sample.session
  revert hfinal
  decide

end Portal

end Cimp
