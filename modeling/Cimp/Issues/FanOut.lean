import Cimp.Issues.Concurrent
import Cimp.Issues.Operation
import Mathlib.Data.List.Count
import Mathlib.Data.List.Perm.Basic

namespace Cimp

open Execution Transaction

def IssueEvent.resolves : IssueEvent → Option Uuid
  | .statusChanged issueId _ _ .resolved _ => some issueId
  | _ => none

namespace MergeService

def fanOutComment (now : Time) (id duplicateId : Uuid) : Comment where
  id := id
  issue := duplicateId
  author := none
  authorType := .system
  authorName := none
  body := "The underlying problem this issue duplicated has been resolved."
  visibility := .reporterVisible
  sourceLocale := none
  translations := []
  createdAt := now
  editedAt := none

def duplicatesOf (db : Db) (issueId : Uuid) : List Issue :=
  db.issues.rows.filter fun r => r.duplicateOf = some issueId

def fanOutStatements (now : Time) (ids : Uuid → Uuid) (duplicates : List Issue) : List (Statement Db) :=
  duplicates.flatMap fun dup => [(fanOutComment now (ids dup.id) dup.id).insert, Issue.touch now dup.id]

/-- `onCanonicalStatusChanged`; `none` is a failure, which is only logged. -/
def onCanonicalStatusChanged (env : Env) (ids : Uuid → Uuid) (evt : IssueEvent) (db : Db) : Option Db :=
  match evt.resolves with
  | none => some db
  | some issueId =>
    if env.read then none
    else body env.statement (fanOutStatements env.now ids (duplicatesOf db issueId)) db

end MergeService

def systemComments (i : Uuid) (db : Db) : ℕ :=
  db.comments.rows.countP fun c => c.issue = i && c.authorType = .system && c.visibility = .reporterVisible

theorem systemComments_insert (i : Uuid) {c : Comment} {s t : Db} (h : c.insert s = some t) :
    systemComments i t = systemComments i s +
      if c.issue = i ∧ c.authorType = .system ∧ c.visibility = .reporterVisible then 1 else 0 := by
  simp only [Comment.insert, Option.map_eq_some_iff] at h
  obtain ⟨comments, hcomments, rfl⟩ := h
  rw [systemComments, Table.rows_insert hcomments, List.countP_append, List.countP_singleton, systemComments]
  simp [and_assoc]

theorem findOne_touch {now : Time} {id : Uuid} {s t : Db} (h : Issue.touch now id s = some t) (i : Uuid) :
    t.issues.findOne i =
      if i = id then (s.issues.findOne i).map (Issue.touched now) else s.issues.findOne i := by
  cases h
  exact Table.findOne_update s.issues id (Issue.touched now) (Issue.touched_id now) i

theorem Comment.insert_issues {c : Comment} {s t : Db} (h : c.insert s = some t) : t.issues = s.issues := by
  simp only [Comment.insert, Option.map_eq_some_iff] at h
  obtain ⟨comments, _, rfl⟩ := h
  rfl

theorem Request.Loads.systemComments {now : Time} {db s t : Db} {r : Request} {w : Write} {env : Env}
    (h : Loads now db r w) (hbody : w.body env s = some t) (i : Uuid) :
    Cimp.systemComments i t = Cimp.systemComments i s := by
  have hstaff : ∀ c : Comment, c.authorType = .staff → Keeps (Cimp.systemComments i) c.insert := by
    intro c hc s t hq
    rw [systemComments_insert i hq, if_neg (by simp [hc]), Nat.add_zero]
  exact h.keeps_body env (fun _ _ => rfl) (fun _ _ => rfl) (fun _ _ => rfl) (fun _ _ => rfl) hstaff s t hbody

theorem ReporterService.createIssue_comments (env : Env) (ctx : HandoffContext) (dto : CreateIssueDto)
    (stored : List StoredFile) (ids : IntakeIds) (db : Db) :
    (createIssue env ctx dto stored ids db).comments = db.comments :=
  createIssue_keeps (fun _ _ => rfl) (fun _ _ => rfl) (fun _ _ => rfl) (fun _ _ => rfl) db

namespace System

theorem systemComments_step (cfg : Config) (s : System) (a : Action) (i : Uuid) :
    systemComments i (s.step cfg a).db = systemComments i s.db := by
  cases a with
  | tick d => rfl
  | intake read fails ctx dto stored ids =>
    simp only [step, systemComments, ReporterService.createIssue_comments]
  | load slot r =>
    rcases s.load_cases cfg slot r with h | ⟨f, _, _, h⟩ <;> rw [step, h]
  | commit slot fails =>
    simp only [step, commit]
    split
    · rfl
    · rename_i f _
      split
      · rfl
      · rename_i db hbody
        exact f.loads.systemComments hbody i
  | sweepSelect slot => rfl
  | sweepMark slot fails =>
    simp only [step, sweepMark]
    split
    · split
      · rfl
      · split
        · rfl
        · rename_i db hmark
          obtain ⟨_, _, _, rfl⟩ := SlaEscalationService.mark_some hmark
          split <;> rfl
    · rfl

end System

namespace MergeService

theorem fanOut_body {fails : ℕ → Bool} {now : Time} {ids : Uuid → Uuid} {duplicates : List Issue} {s t : Db}
    (h : body fails (fanOutStatements now ids duplicates) s = some t) (hnodup : (duplicates.map Issue.id).Nodup)
    (i : Uuid) :
    systemComments i t = systemComments i s + (duplicates.map Issue.id).count i ∧
      t.issues.findOne i =
        if i ∈ duplicates.map Issue.id then (s.issues.findOne i).map (Issue.touched now)
        else s.issues.findOne i := by
  induction duplicates generalizing fails s with
  | nil =>
    cases h
    simp
  | cons dup duplicates ih =>
    obtain ⟨m, hcomment, h⟩ := body_cons h
    obtain ⟨m', htouch, h⟩ := body_cons h
    rw [List.map_cons, List.nodup_cons] at hnodup
    obtain ⟨hcount, hrow⟩ := ih h hnodup.2
    have hadded : systemComments i m = systemComments i s + if dup.id = i then 1 else 0 := by
      simpa [fanOutComment] using systemComments_insert i hcomment
    have hkept : systemComments i m' = systemComments i m := Issue.keeps_touch (fun _ _ => rfl) _ _ _ _ htouch
    have htouched := findOne_touch htouch i
    rw [Comment.insert_issues hcomment] at htouched
    constructor
    · rw [List.map_cons, List.count_cons, hcount, hkept, hadded]
      by_cases hi : dup.id = i
      · simp only [hi, if_true, beq_self_eq_true]
        omega
      · simp [hi]
    · rw [hrow, htouched]
      by_cases hi : i = dup.id
      · subst hi
        simp [hnodup.1]
      · simp [hi]

theorem duplicatesOf_nodup (db : Db) (c : Uuid) : ((duplicatesOf db c).map Issue.id).Nodup :=
  db.issues.nodup.sublist (List.filter_sublist.map _)

theorem mem_duplicatesOf {db : Db} {c i : Uuid} : i ∈ (duplicatesOf db c).map Issue.id ↔
    (db.issues.findOne i).bind Issue.duplicateOf = some c := by
  simp only [duplicatesOf, List.mem_map, List.mem_filter, decide_eq_true_eq, Option.bind_eq_some_iff]
  constructor
  · rintro ⟨row, ⟨hrow, hc⟩, rfl⟩
    exact ⟨row, Table.findOne_of_mem hrow, hc⟩
  · rintro ⟨row, hrow, hc⟩
    exact ⟨row, ⟨Table.mem_of_findOne hrow, hc⟩, Table.findOne_key hrow⟩

end MergeService

def Write.resolves (w : Write) : Bool :=
  w.audit.any fun a => a.field = some "status" && a.newValue = some IssueStatus.resolved.value

def Request.isWebhook : Request → Bool
  | .webhook _ => true
  | _ => false

theorem IssueStatus.value_eq_resolved {s : IssueStatus} :
    s.value = IssueStatus.resolved.value ↔ s = .resolved := by cases s <;> decide

theorem Request.Loads.countP_resolves {now : Time} {db : Db} {r : Request} {w : Write} (h : Loads now db r w)
    (c : Uuid) : w.events.countP (fun e => e.resolves = some c) =
      if r.isWebhook = false ∧ w.issue.id = c ∧ w.resolves then 1 else 0 := by
  cases h with
  | merge => simp [MergeService.mergeWrite, IssueEvent.resolves, Write.resolves, IssueStatus.value]
  | @changeStatus staff _ dto row =>
    have hresolves : (IssuesService.statusWrite now staff (row.toEntity { assignee := true }) dto.status).resolves =
        decide (dto.status = .resolved) := by
      simp [Write.resolves, IssuesService.statusWrite, IssueStatus.value_eq_resolved]
    rw [hresolves, IssuesService.statusWrite, IssueEntity.setStatus_id]
    cases dto.status <;> simp [IssueEvent.resolves, Request.isWebhook]
  | changePriority => simp [IssuesService.priorityWrite, IssueEvent.resolves, Write.resolves]
  | changeAssignment => simp [IssuesService.assignmentWrite, IssueEvent.resolves, Write.resolves]
  | webhook => simp [JiraInboundService.webhookWrite, Request.isWebhook]

structure Deployment where
  system : System
  pending : List IssueEvent
  handled : List Uuid

namespace Deployment

inductive Action
  | run (a : Cimp.Action)
  | deliver (k : ℕ) (read : Bool) (fails : ℕ → Bool) (ids : Uuid → Uuid)

def start (db : Db) (clock : Time) : Deployment := ⟨.start db clock, [], []⟩

/-- The issue whose transition to RESOLVED an action handles: that of the event it delivers, or, as
no event follows, that of the webhook it commits. -/
def handles (d : Deployment) : Action → Option Uuid
  | .run a => (d.system.saving a).bind fun f =>
      if f.request.isWebhook && f.write.resolves then some f.write.issue.id else none
  | .deliver k _ _ _ => d.pending[k]?.bind IssueEvent.resolves

def handler (d : Deployment) (k : ℕ) (read : Bool) (fails : ℕ → Bool) (ids : Uuid → Uuid) : Option Db :=
  match d.pending[k]? with
  | none => some d.system.db
  | some evt =>
    MergeService.onCanonicalStatusChanged { now := d.system.clock, read, statement := fails } ids evt d.system.db

def step (cfg : Config) (d : Deployment) (a : Action) : Deployment :=
  let handled := d.handled ++ (d.handles a).toList
  match a with
  | .run a =>
    let system := d.system.step cfg a
    { system, pending := d.pending ++ system.events.drop d.system.events.length, handled }
  | .deliver k read fails ids =>
    { system := { d.system with db := (d.handler k read fails ids).getD d.system.db }
      pending := d.pending.eraseIdx k
      handled }

def CallsSucceed (d : Deployment) : Action → Prop
  | .run _ => True
  | .deliver k read fails ids => (d.handler k read fails ids).isSome

instance (d : Deployment) : (a : Action) → Decidable (d.CallsSucceed a)
  | .run _ => inferInstanceAs (Decidable True)
  | .deliver k read fails ids => inferInstanceAs (Decidable ((d.handler k read fails ids).isSome = true))

def owes (d : Deployment) (a : Action) (i : Uuid) : Bool :=
  (d.handles a).any fun c => (d.system.db.issues.findOne i).bind Issue.duplicateOf = some c

structure FansOut (cfg : Config) (d : Deployment) (a : Action) : Prop where
  comments : ∀ i, systemComments i (d.step cfg a).system.db =
    systemComments i d.system.db + if d.owes a i then 1 else 0
  bumps : ∀ i, d.owes a i = true →
    ∃ row, (d.step cfg a).system.db.issues.findOne i = some row ∧ row.updatedAt = d.system.clock

def transitions (d : Deployment) (c : Uuid) : ℕ :=
  d.system.committed.countP fun f => f.write.issue.id = c && f.write.resolves

def Accounted (d : Deployment) : Prop :=
  ∀ c, d.transitions c = d.handled.count c + d.pending.countP fun e => e.resolves = some c

def WebhooksResolveAlone (d : Deployment) : Action → Prop
  | .run a => ∀ f ∈ d.system.saving a, f.request.isWebhook = true → f.write.resolves = true →
      ∀ i row, d.system.db.issues.findOne i = some row → row.duplicateOf ≠ some f.write.issue.id
  | .deliver .. => True

variable {cfg : Config} {d : Deployment}

theorem countP_events {s s' : System} {a : Cimp.Action} (h : System.Effect s a s') (c : Uuid) :
    (s'.events.drop s.events.length).countP (fun e => e.resolves = some c) =
      (s.saving a).elim 0 fun f =>
        if f.request.isWebhook = false ∧ f.write.issue.id = c ∧ f.write.resolves then 1 else 0 := by
  cases h with
  | idle hs _ _ _ _ hevents => simp [hs, hevents]
  | intake hs _ _ _ _ _ _ hevents => simp [hs, hevents]
  | @commit slot fails f hs _ _ _ _ hevents =>
    rw [hs, hevents, List.drop_left]
    exact f.loads.countP_resolves c
  | mark hs _ _ _ _ _ _ _ _ hevents =>
    rw [hs, hevents, List.drop_left]
    simp [IssueEvent.resolves]

theorem committed_step {s s' : System} {a : Cimp.Action} (h : System.Effect s a s') :
    s'.committed = s.committed ++ (s.saving a).toList := by
  cases h with
  | idle hs _ _ _ hcommitted => simp [hs, hcommitted]
  | intake hs _ _ _ _ _ hcommitted => simp [hs, hcommitted]
  | commit hs _ _ _ hcommitted => simp [hs, hcommitted]
  | mark hs _ _ _ _ _ _ _ hcommitted => simp [hs, hcommitted]

theorem Accounted.step (h : d.Accounted) (a : Action) : (d.step cfg a).Accounted := by
  intro c
  have hbefore := h c
  cases a with
  | run a =>
    have heffect := d.system.step_effect cfg a
    simp only [transitions, Deployment.step, handles] at hbefore ⊢
    rw [committed_step heffect, List.countP_append, List.count_append, List.countP_append,
      countP_events heffect, hbefore]
    cases hsaving : d.system.saving a with
    | none => simp
    | some f =>
      by_cases hid : f.write.issue.id = c <;> cases hw : f.request.isWebhook <;>
        cases hr : f.write.resolves <;> simp [hid, hw, hr] <;> omega
  | deliver k read fails ids =>
    simp only [transitions, Deployment.step, handles] at hbefore ⊢
    rw [List.count_append, hbefore]
    cases hk : d.pending[k]? with
    | none =>
      rw [List.eraseIdx_of_length_le (List.getElem?_eq_none_iff.mp hk)]
      simp
    | some evt =>
      obtain ⟨hlt, rfl⟩ := List.getElem?_eq_some_iff.mp hk
      have hperm := (List.getElem_cons_eraseIdx_perm hlt).countP_eq (fun e => decide (e.resolves = some c))
      rw [List.countP_cons] at hperm
      have hone : (some d.pending[k]).bind IssueEvent.resolves = d.pending[k].resolves := rfl
      rw [hone]
      cases hr : d.pending[k].resolves with
      | none => simp [hr] at hperm ⊢; omega
      | some c' => by_cases hc : c' = c <;> simp [hr, hc] at hperm ⊢ <;> omega

theorem fansOut_deliver {k : ℕ} {read : Bool} {fails : ℕ → Bool} {ids : Uuid → Uuid}
    (h : d.CallsSucceed (.deliver k read fails ids)) : d.FansOut cfg (.deliver k read fails ids) := by
  obtain ⟨db, hdb⟩ := Option.isSome_iff_exists.mp h
  have hstep : (d.step cfg (.deliver k read fails ids)).system.db = db := by simp [step, hdb]
  unfold handler at hdb
  cases hk : d.pending[k]? with
  | none =>
    rw [hk] at hdb
    cases hdb
    exact ⟨fun i => by simp [hstep, owes, handles, hk], fun i hi => by simp [owes, handles, hk] at hi⟩
  | some evt =>
    rw [hk] at hdb
    simp only [MergeService.onCanonicalStatusChanged] at hdb
    cases hr : evt.resolves with
    | none =>
      rw [hr] at hdb
      cases hdb
      exact ⟨fun i => by simp [hstep, owes, handles, hk, hr], fun i hi => by simp [owes, handles, hk, hr] at hi⟩
    | some c =>
      rw [hr] at hdb
      simp only at hdb
      split at hdb
      · cases hdb
      · have hbody := MergeService.fanOut_body hdb (MergeService.duplicatesOf_nodup _ _)
        have howes : ∀ i, d.owes (.deliver k read fails ids) i = true ↔
            i ∈ (MergeService.duplicatesOf d.system.db c).map Issue.id := by
          intro i
          rw [MergeService.mem_duplicatesOf]
          simp [owes, handles, hk, hr]
        constructor
        · intro i
          rw [hstep, (hbody i).1, List.Nodup.count (MergeService.duplicatesOf_nodup _ _)]
          simp only [howes]
        · intro i hi
          have hmem := (howes i).mp hi
          obtain ⟨row, hrow, _⟩ := Option.bind_eq_some_iff.mp (MergeService.mem_duplicatesOf.mp hmem)
          refine ⟨row.touched d.system.clock, ?_, rfl⟩
          rw [hstep, (hbody i).2, if_pos hmem, hrow]
          rfl

theorem fansOut_run_iff {a : Cimp.Action} : d.FansOut cfg (.run a) ↔ d.WebhooksResolveAlone (.run a) := by
  have hsame : ∀ i, systemComments i (d.step cfg (.run a)).system.db = systemComments i d.system.db :=
    fun i => d.system.systemComments_step cfg a i
  have howes : (∀ i, d.owes (.run a) i = false) ↔ d.WebhooksResolveAlone (.run a) := by
    simp only [owes, handles, WebhooksResolveAlone, Option.mem_def]
    cases d.system.saving a with
    | none => simp
    | some f =>
      cases hw : f.request.isWebhook <;> cases hr : f.write.resolves <;>
        simp [hw, hr, Option.bind_eq_some_iff]
  rw [← howes]
  constructor
  · intro h i
    have hcount := h.comments i
    rw [hsame] at hcount
    by_contra hc
    rw [Bool.not_eq_false] at hc
    simp [hc] at hcount
  · intro h
    exact ⟨fun i => by rw [hsame, h i]; rfl, fun i hi => by rw [h i] at hi; cases hi⟩

/-- When no call of the fan-out fails, every committed transition to RESOLVED is accounted for; and
each is fanned out to exactly the issues that point at its issue when it is handled if and only if
every webhook that resolves an issue resolves one that nothing points at. -/
theorem close_the_loop_iff (cfg : Config) (db : Db) (clock : Time) (as : List Action)
    (h : EveryStep (step cfg) CallsSucceed (start db clock) as) :
    (Always (step cfg) Accounted (start db clock) as ∧
      EveryStep (step cfg) (FansOut cfg) (start db clock) as) ↔
        EveryStep (step cfg) WebhooksResolveAlone (start db clock) as := by
  have haccounted : Always (step cfg) Accounted (start db clock) as :=
    always_of_step (fun _ a hd => hd.step a) (fun _ => rfl) as
  constructor
  · rintro ⟨_, hfans⟩
    apply everyStep_iff_initial.mpr
    intro pre a hpre
    have hstep := everyStep_iff_initial.mp hfans pre a hpre
    cases a with
    | run a => exact fansOut_run_iff.mp hstep
    | deliver => trivial
  · intro halone
    refine ⟨haccounted, everyStep_iff_initial.mpr fun pre a hpre => ?_⟩
    cases a with
    | run a => exact fansOut_run_iff.mpr (everyStep_iff_initial.mp halone pre _ hpre)
    | deliver => exact fansOut_deliver (everyStep_iff_initial.mp h pre _ hpre)

end Deployment

namespace Sample

def linkedIssues : Db :=
  exec (Operation.run config) .empty
    [.intake { now := 0 } context ⟨"It does not load", none⟩ [] ⟨"A", "reporter", "A"⟩,
      .jiraSync { now := 1 } "A" (some "SUP-1"),
      .intake { now := 2 } context ⟨"It still does not load", none⟩ [] ⟨"B", "reporter", "B"⟩]

def mergeBIntoA : List Deployment.Action :=
  (request (.merge admin "B" ⟨"A", 1⟩ ⟨"link", "comment-1", "comment-2"⟩)).map .run

def deliverFirst : Deployment.Action := .deliver 0 false (fun _ => false) fun i => "fan-out-" ++ i

end Sample

namespace Deployment

def resolvedByStaff : List Action :=
  Sample.mergeBIntoA
    ++ (Sample.request (.changeStatus Sample.admin "A" ⟨.inProgress, 3⟩)).map .run
    ++ (Sample.request (.changeStatus Sample.admin "A" ⟨.resolved, 4⟩)).map .run
    ++ [Sample.deliverFirst, Sample.deliverFirst, Sample.deliverFirst]

theorem close_the_loop_iff_resolvedByStaff :
    (Always (step Sample.config) Accounted (start Sample.linkedIssues 3) resolvedByStaff ∧
      EveryStep (step Sample.config) (FansOut Sample.config) (start Sample.linkedIssues 3) resolvedByStaff) ↔
        EveryStep (step Sample.config) WebhooksResolveAlone (start Sample.linkedIssues 3) resolvedByStaff :=
  close_the_loop_iff Sample.config Sample.linkedIssues 3 resolvedByStaff (by decide)

def resolvedByJira : List Action :=
  (Sample.request (.webhook ⟨some "SUP-1", some "done"⟩)).map .run

theorem jira_resolution_not_fanned_out :
    ¬ ∀ (cfg : Config) (db : Db) (clock : Time) (as : List Action),
      EveryStep (step cfg) CallsSucceed (start db clock) as →
        Always (step cfg) Accounted (start db clock) as ∧
          EveryStep (step cfg) (FansOut cfg) (start db clock) as := by
  intro h
  have hfans := (h Sample.config Sample.linkedIssues 3 (Sample.mergeBIntoA ++ resolvedByJira) (by decide)).2
  have hcommit := everyStep_iff_initial.mp hfans (Sample.mergeBIntoA ++ resolvedByJira.dropLast)
    (.run (.commit 0 fun _ => false)) List.prefix_rfl
  have hcount := hcommit.comments "B"
  revert hcount
  decide

end Deployment

end Cimp
