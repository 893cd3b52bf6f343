import Cimp.Issues.FanOut
import Cimp.Issues.Operation
import Cimp.Reporter.Portal

namespace Cimp

open Execution Transaction

/-- `ids` gives the fan-out's comments their ids, `last` where it names none. -/
inductive Activity
  | intake (env : Env) (ctx : HandoffContext) (dto : CreateIssueDto) (stored : List StoredFile) (ids : IntakeIds)
  | request (env : Env) (r : Request)
  | bulkUpdate (env : ℕ → Env) (staff : AuthenticatedStaff) (dto : BulkUpdateDto)
  | addComment (env : Env) (staff : AuthenticatedStaff) (issueId : Uuid) (dto : CreateCommentDto) (id : Uuid)
  | editComment (env : Env) (staff : AuthenticatedStaff) (commentId : Uuid) (body : String)
  | reply (env : Env) (ctx : HandoffContext) (issueId : Uuid) (body : String) (id : Uuid)
  | submitCsat (env : Env) (ctx : HandoffContext) (issueId : Uuid) (dto : SubmitCsatDto) (id : Uuid)
  | markSeen (env : Env) (ctx : HandoffContext) (issueId : Uuid)
  | statusChanged (env : Env) (evt : IssueEvent) (ids : List (Uuid × Uuid)) (last : Uuid)

def settle (db : Db) (answer : Except HttpException Db) : Db :=
  match answer with
  | .ok db' => db'
  | .error _ => db

namespace Activity

def commentOf (ids : List (Uuid × Uuid)) (last duplicateId : Uuid) : Uuid := (ids.lookup duplicateId).getD last

def run (cfg : Config) (db : Db) : Activity → Db
  | .intake env ctx dto stored ids => ReporterService.createIssue env ctx dto stored ids db
  | .request env r => r.run cfg env db
  | .bulkUpdate env staff dto => (Operation.bulkUpdate env staff dto).run cfg db
  | .addComment env staff issueId dto id =>
    settle db ((CommentsService.addComment env staff issueId dto id db).map Prod.fst)
  | .editComment env staff commentId body => settle db (CommentsService.editComment env staff commentId body db)
  | .reply env ctx issueId body id => settle db (ReporterService.addComment env ctx issueId body id db)
  | .submitCsat env ctx issueId dto id => (CsatService.submit env ctx issueId dto id db).2
  | .markSeen env ctx issueId => settle db (ReporterService.markSeen env ctx issueId db)
  | .statusChanged env evt ids last =>
    (MergeService.onCanonicalStatusChanged env (commentOf ids last) evt db).getD db

def commentKeys : Activity → List Uuid
  | .request _ (.merge _ _ _ ids) => [ids.duplicateComment, ids.canonicalComment]
  | .addComment _ _ _ _ id | .reply _ _ _ _ id | .submitCsat _ _ _ _ id => [id]
  | .statusChanged _ _ ids last => last :: ids.map Prod.snd
  | _ => []

def Internal (db : Db) : Activity → Prop
  | .addComment _ _ _ dto _ => dto.visibility = .internal
  | .editComment _ _ commentId _ => ∀ c ∈ db.comments.findOne commentId, c.visibility = .internal
  | _ => False

end Activity

def isVisible (c : Comment) : Bool := c.visibility = .reporterVisible

def visiblePart (db : Db) : Db := { db with comments := db.comments.filter isVisible, auditEvents := [] }

/-- The visible part, and which of the given keys are taken by a comment, visible or not. -/
def observed (keys : List Uuid) (db : Db) : Db × List Bool :=
  (visiblePart db, keys.map fun k => (db.comments.findOne k).isSome)

theorem visiblePart_eq_iff {s t : Db} : visiblePart s = visiblePart t ↔
    t = { s with comments := t.comments, auditEvents := t.auditEvents } ∧
      s.comments.filter isVisible = t.comments.filter isVisible := by
  constructor
  · intro h
    simp only [visiblePart, Db.mk.injEq] at h
    cases s
    cases t
    simp_all
  · rintro ⟨ht, hcomments⟩
    rw [ht]
    simp only [visiblePart, hcomments]

def Ignores (q : Statement Db) : Prop :=
  ∀ db comments auditEvents, q { db with comments, auditEvents } =
    (q db).map fun m => { m with comments, auditEvents }

theorem Ignores.agree {q : Statement Db} (h : Ignores q) (keys : List Uuid) :
    Agree (observed keys) q q := by
  intro s t hst
  obtain ⟨hvisible, hkeys⟩ := Prod.mk.inj hst
  obtain ⟨ht, hcomments⟩ := visiblePart_eq_iff.mp hvisible
  have hq := h s t.comments t.auditEvents
  rw [← ht] at hq
  rw [hq, Option.map_map]
  cases hm : q s with
  | none => rfl
  | some m =>
    have hsame := h s s.comments s.auditEvents
    rw [hm, Option.map_some] at hsame
    have hunchanged : m.comments = s.comments := (congrArg Db.comments (Option.some.inj hsame) :)
    simp only [Option.map_some, Function.comp_apply, observed, visiblePart, hunchanged, hcomments]
    rw [hkeys]

theorem agree_record (keys : List Uuid) (now : Time) (i i' : AuditInput) :
    Agree (observed keys) (AuditService.record now i) (AuditService.record now i') := fun _ _ h => congrArg some h

theorem agree_insert {keys : List Uuid} {c : Comment} (hc : c.id ∈ keys) : Agree (observed keys) c.insert c.insert := by
  intro s t hst
  obtain ⟨hvisible, hkeys⟩ := Prod.mk.inj hst
  obtain ⟨ht, hcomments⟩ := visiblePart_eq_iff.mp hvisible
  have htaken : (s.comments.findOne c.id).isSome = (t.comments.findOne c.id).isSome := List.map_inj_left.mp hkeys c.id hc
  unfold Comment.insert
  cases hs : s.comments.insert c with
  | none =>
    rw [Table.insert_eq_none_iff.mpr (htaken ▸ Table.insert_eq_none_iff.mp hs)]
    rfl
  | some cs =>
    cases hcs' : t.comments.insert c with
    | none =>
      rw [Table.insert_eq_none_iff.mpr (htaken ▸ Table.insert_eq_none_iff.mp hcs')] at hs
      cases hs
    | some cs' =>
      have hrows := congrArg Table.rows hcomments
      have hfilter : cs.filter isVisible = cs'.filter isVisible := by
        apply Table.ext
        simp only [Table.filter, Table.rows_insert hs, Table.rows_insert hcs', List.filter_append] at hrows ⊢
        rw [hrows]
      have hvisible' : visiblePart { s with comments := cs } = visiblePart { t with comments := cs' } := by
        refine visiblePart_eq_iff.mpr ⟨?_, hfilter⟩
        rw [ht]
      have hkeys' : (keys.map fun k => (cs.findOne k).isSome) = keys.map fun k => (cs'.findOne k).isSome := by
        apply List.map_congr_left
        intro k hk
        rw [Table.findOne_insert hs, Table.findOne_insert hcs']
        split
        · rfl
        · exact List.map_inj_left.mp hkeys k hk
      exact congrArg some (Prod.ext hvisible' hkeys')

theorem filter_update {t : Table Comment.id} {id : Uuid} {f : Comment → Comment} (hf : ∀ c, (f c).id = c.id)
    (hv : ∀ c, isVisible (f c) = isVisible c) :
    (t.update id f hf).filter isVisible = (t.filter isVisible).update id f hf := by
  apply Table.ext
  have hsame : (isVisible ∘ fun c => if c.id = id then f c else c) = isVisible := by
    funext c
    simp only [Function.comp_apply]
    split
    · exact hv c
    · rfl
  simp only [Table.filter, Table.update, List.filter_map, hsame]

theorem agree_saveEdited (keys : List Uuid) (now : Time) (id : Uuid) (body : String) :
    Agree (observed keys) (CommentsService.saveEdited now id body) (CommentsService.saveEdited now id body) := by
  intro s t hst
  obtain ⟨hvisible, hkeys⟩ := Prod.mk.inj hst
  obtain ⟨ht, hcomments⟩ := visiblePart_eq_iff.mp hvisible
  have hvisible' : ∀ c, isVisible (CommentsService.edited now body c) = isVisible c := fun _ => rfl
  refine congrArg some (Prod.ext ?_ ?_)
  · refine visiblePart_eq_iff.mpr ⟨by rw [ht], ?_⟩
    simp only [filter_update (CommentsService.edited_id now body) hvisible', hcomments]
  · apply List.map_congr_left
    intro k hk
    simp only [Table.findOne_update _ _ _ (CommentsService.edited_id now body)]
    have hk' := List.map_inj_left.mp hkeys k hk
    split
    · simpa using hk'
    · exact hk'

theorem ignores_save (now : Time) (e : IssueEntity) : Ignores (e.save now) := fun _ _ _ => rfl

theorem ignores_touch (now : Time) (id : Uuid) : Ignores (Issue.touch now id) := fun _ _ _ => rfl

theorem ignores_link (l : IssueLink) : Ignores l.insertOrIgnore := by
  intro db comments auditEvents
  unfold IssueLink.insertOrIgnore
  dsimp only
  split <;> rfl

theorem ignores_copyWatchers (canonicalId duplicateId : Uuid) : Ignores (copyWatchers canonicalId duplicateId) :=
  fun _ _ _ => rfl

theorem ignores_insertIssue (i : Issue) : Ignores (ReporterService.insertIssue i) := by
  intro db comments auditEvents
  unfold ReporterService.insertIssue
  dsimp only
  split
  · rfl
  · cases db.issues.insert i <;> rfl

theorem ignores_insertAttachment (now : Time) (issue : Uuid) (f : StoredFile) :
    Ignores (ReporterService.insertAttachment now issue f) := by
  intro db comments auditEvents
  unfold ReporterService.insertAttachment
  dsimp only
  cases db.attachments.insert _ <;> rfl

theorem ignores_saveView (now : Time) (reporterId issueId : Uuid) :
    Ignores (ReporterService.saveView now reporterId issueId) := by
  intro db comments auditEvents
  unfold ReporterService.saveView ReporterService.lastViewed
  dsimp only
  split <;> rfl

theorem ignores_saveResponse (r : CsatResponse) : Ignores (CsatService.saveResponse r) := by
  intro db comments auditEvents
  unfold CsatService.saveResponse CsatService.responseOf
  dsimp only
  split <;> rfl

theorem agree_of_forall {keys : List Uuid} {qs : List (Statement Db)}
    (h : ∀ q ∈ qs, Agree (observed keys) q q) : List.Forall₂ (Agree (observed keys)) qs qs :=
  List.forall₂_same.mpr h

theorem visiblePart_commit (keys : List Uuid) {qs : List (Statement Db)} (h : ∀ q ∈ qs, Agree (observed keys) q q)
    (fails : ℕ → Bool) {s t : Db} (hst : observed keys s = observed keys t) :
    visiblePart (commit fails qs s) = visiblePart (commit fails qs t) :=
  congrArg Prod.fst (Agree.commit (agree_of_forall h) fails hst)

theorem settle_body (fails : ℕ → Bool) (qs : List (Statement Db)) (db : Db) :
    settle db (match body fails qs db with
      | none => .error .internalServerError
      | some db' => .ok db') = commit fails qs db := by
  unfold commit
  cases body fails qs db <;> rfl

namespace Activity

variable {cfg : Config} {s t db : Db}

theorem upsertReporter_ignores (ctx : HandoffContext) (id : Uuid) (db : Db) (comments : Table Comment.id)
    (auditEvents : List AuditEvent) :
    ReporterService.upsertReporter ctx id { db with comments, auditEvents } =
      (ReporterService.upsertReporter ctx id db).map fun p => ({ p.1 with comments, auditEvents }, p.2) := by
  unfold ReporterService.upsertReporter ReporterService.findReporter
  dsimp only
  split
  · rfl
  · cases db.reporters.insert _ <;> rfl

theorem intake_visible (env : Env) (ctx : HandoffContext) (dto : CreateIssueDto) (stored : List StoredFile)
    (ids : IntakeIds) (h : visiblePart s = visiblePart t) :
    visiblePart (ReporterService.createIssue env ctx dto stored ids s) =
      visiblePart (ReporterService.createIssue env ctx dto stored ids t) := by
  obtain ⟨ht, hcomments⟩ := visiblePart_eq_iff.mp h
  have hupsert := upsertReporter_ignores ctx ids.reporter s t.comments t.auditEvents
  have hsame := upsertReporter_ignores ctx ids.reporter s s.comments s.auditEvents
  rw [← ht] at hupsert
  unfold ReporterService.createIssue
  split
  · exact h
  · rw [hupsert]
    cases hs : ReporterService.upsertReporter ctx ids.reporter s with
    | none => exact h
    | some p =>
      rw [hs, Option.map_some] at hsame
      have hunchanged : p.1.comments = s.comments :=
        (congrArg (fun p => Db.comments p.1) (Option.some.inj hsame) :)
      refine visiblePart_commit [] (fun q hq => ?_) env.statement ?_
      · simp only [ReporterService.persistIssue, List.mem_cons, List.mem_append, List.mem_map, List.not_mem_nil,
          or_false] at hq
        rcases hq with rfl | ⟨f, _, rfl⟩ | rfl
        · exact (ignores_insertIssue _).agree _
        · exact (ignores_insertAttachment _ _ f).agree _
        · exact agree_record _ _ _ _
      · refine Prod.ext (visiblePart_eq_iff.mpr ⟨rfl, ?_⟩) rfl
        rw [hunchanged]
        exact hcomments

theorem others_agree {env : Env} {r : Request} {w : Write} {now : Time} (h : Request.Loads now db r w) :
    ∀ q ∈ w.others now, Agree (observed (request env r).commentKeys) q q := by
  cases h with
  | @merge staff issueId dto ids duplicate canonical root =>
    intro q hq
    simp only [MergeService.mergeWrite, MergeService.others, List.mem_cons, List.not_mem_nil, or_false] at hq
    rcases hq with rfl | rfl | rfl | rfl
    · exact (ignores_link _).agree _
    · exact (ignores_copyWatchers _ _).agree _
    · exact agree_insert (by simp [commentKeys, MergeService.duplicateComment])
    · exact agree_insert (by simp [commentKeys, MergeService.canonicalComment])
  | changeStatus => simp [IssuesService.statusWrite]
  | changePriority => simp [IssuesService.priorityWrite]
  | changeAssignment => simp [IssuesService.assignmentWrite]
  | webhook => simp [JiraInboundService.webhookWrite]

theorem request_visible (env : Env) (r : Request)
    (h : observed (request env r).commentKeys s = observed (request env r).commentKeys t) :
    visiblePart (r.run cfg env s) = visiblePart (r.run cfg env t) := by
  obtain ⟨ht, _⟩ := visiblePart_eq_iff.mp (Prod.mk.inj h).1
  have hload : r.load cfg env.now t = r.load cfg env.now s := by
    rw [ht]
    cases r <;> rfl
  unfold Request.run
  rw [hload]
  split
  · exact (Prod.mk.inj h).1
  · split
    · rename_i w hw
      refine visiblePart_commit _ (fun q hq => ?_) env.statement h
      simp only [Write.statements, List.mem_cons, List.mem_append, List.mem_map] at hq
      rcases hq with rfl | hother | ⟨i, _, rfl⟩
      · exact (ignores_save _ _).agree _
      · exact others_agree (Request.loads_of_load hw) q hother
      · exact agree_record _ _ _ _
    · exact (Prod.mk.inj h).1

theorem bulkStep_visible (env : ℕ → Env) (staff : AuthenticatedStaff) (change : IssuesService.BulkChange)
    (x y : BulkRun) (item : Uuid × ℕ) (h : visiblePart x.db = visiblePart y.db) :
    visiblePart (IssuesService.bulkStep cfg env staff change x item).db =
      visiblePart (IssuesService.bulkStep cfg env staff change y item).db := by
  obtain ⟨hy, _⟩ := visiblePart_eq_iff.mp h
  have hwrite : IssuesService.bulkWrite cfg (env item.2) y.db staff change item.1 =
      IssuesService.bulkWrite cfg (env item.2) x.db staff change item.1 := by
    rw [hy]
    cases change <;> rfl
  unfold IssuesService.bulkStep
  rw [hwrite]
  split
  · exact h
  · rename_i w hw
    have hothers : w.others (env item.2).now = [] := by
      obtain ⟨row, _, hw⟩ := IssuesService.bulkWrite_ok hw
      rcases hw with ⟨_, _, rfl⟩ | ⟨_, _, rfl⟩ | ⟨_, rfl⟩ <;> rfl
    have hagree : ∀ q ∈ w.statements (env item.2).now, Agree (observed []) q q := by
      intro q hq
      simp only [Write.statements, hothers, List.nil_append, List.mem_cons, List.mem_map] at hq
      rcases hq with rfl | ⟨i, _, rfl⟩
      · exact (ignores_save _ _).agree _
      · exact agree_record _ _ _ _
    have hcommit := visiblePart_commit [] hagree (env item.2).statement (Prod.ext h rfl)
    unfold commit at hcommit
    unfold Write.body
    cases hbx : body (env item.2).statement (w.statements (env item.2).now) x.db <;>
      cases hby : body (env item.2).statement (w.statements (env item.2).now) y.db <;>
      simpa [hbx, hby] using hcommit

theorem bulkUpdate_visible (env : ℕ → Env) (staff : AuthenticatedStaff) (dto : BulkUpdateDto)
    (h : visiblePart s = visiblePart t) : visiblePart ((bulkUpdate env staff dto).run cfg s) =
      visiblePart ((bulkUpdate env staff dto).run cfg t) := by
  have hloop : ∀ change,
      visiblePart (exec (IssuesService.bulkStep cfg env staff change) ⟨s, 0, [], []⟩ dto.ids.zipIdx).db =
        visiblePart (exec (IssuesService.bulkStep cfg env staff change) ⟨t, 0, [], []⟩ dto.ids.zipIdx).db :=
    fun change => exec_related (R := fun x y : BulkRun => visiblePart x.db = visiblePart y.db)
      (bulkStep_visible env staff change) h dto.ids.zipIdx
  simp only [run, Operation.run, IssuesService.bulkUpdate]
  by_cases hscope : ScopeService.scopedPlatformIds staff = .ids []
  · simpa only [hscope, if_true] using h
  · simp only [hscope, if_false]
    cases IssuesService.bulkChange cfg dto with
    | error e => exact h
    | ok change => exact hloop change

theorem addComment_run (env : Env) (staff : AuthenticatedStaff) (issueId : Uuid) (dto : CreateCommentDto) (id : Uuid)
    (db : Db) : (addComment env staff issueId dto id).run cfg db =
      if env.read ∨ db.issues.findOne issueId = none then db
      else commit env.statement (CommentsService.addStatements env.now staff issueId id dto) db := by
  simp only [run, CommentsService.addComment]
  cases hread : env.read with
  | true => rfl
  | false =>
    cases db.issues.findOne issueId with
    | none => rfl
    | some issue =>
      unfold commit
      cases body env.statement (CommentsService.addStatements env.now staff issueId id dto) db <;> rfl

theorem addComment_visible (env : Env) (staff : AuthenticatedStaff) (issueId : Uuid) (dto : CreateCommentDto)
    (id : Uuid) (h : observed [id] s = observed [id] t) :
    visiblePart ((addComment env staff issueId dto id).run cfg s) =
      visiblePart ((addComment env staff issueId dto id).run cfg t) := by
  obtain ⟨ht, _⟩ := visiblePart_eq_iff.mp (Prod.mk.inj h).1
  have hissue : t.issues.findOne issueId = s.issues.findOne issueId := by rw [ht]
  rw [addComment_run, addComment_run, hissue]
  split
  · exact (Prod.mk.inj h).1
  · refine visiblePart_commit _ (fun q hq => ?_) env.statement h
    simp only [CommentsService.addStatements, List.mem_cons, List.mem_append, List.not_mem_nil, or_false] at hq
    rcases hq with rfl | htouch | rfl
    · exact agree_insert (by simp [CommentsService.staffComment])
    · split at htouch
      · cases List.mem_singleton.mp htouch
        exact (ignores_touch _ _).agree _
      · cases htouch
    · exact agree_record _ _ _ _

theorem reply_visible (env : Env) (ctx : HandoffContext) (issueId : Uuid) (text : String) (id : Uuid)
    (h : observed [id] s = observed [id] t) :
    visiblePart ((reply env ctx issueId text id).run cfg s) =
      visiblePart ((reply env ctx issueId text id).run cfg t) := by
  obtain ⟨ht, _⟩ := visiblePart_eq_iff.mp (Prod.mk.inj h).1
  have hown : ReporterService.findOwn t ctx issueId = ReporterService.findOwn s ctx issueId := by
    rw [ht]
    rfl
  simp only [run, ReporterService.addComment, hown]
  split
  · exact (Prod.mk.inj h).1
  · cases ReporterService.findOwn s ctx issueId with
    | error e => exact (Prod.mk.inj h).1
    | ok own =>
      have hbody := fun db => settle_body env.statement
        (ReporterService.replyStatements env.now ctx own.1 issueId id text) db
      refine (congrArg visiblePart (hbody s)).trans (Eq.trans ?_ (congrArg visiblePart (hbody t)).symm)
      refine visiblePart_commit _ (fun q hq => ?_) env.statement h
      simp only [ReporterService.replyStatements, List.mem_cons, List.not_mem_nil, or_false] at hq
      rcases hq with rfl | rfl | rfl
      · exact agree_insert (by simp [ReporterService.reply])
      · exact (ignores_touch _ _).agree _
      · exact agree_record _ _ _ _

theorem markSeen_visible (env : Env) (ctx : HandoffContext) (issueId : Uuid) (h : visiblePart s = visiblePart t) :
    visiblePart ((markSeen env ctx issueId).run cfg s) = visiblePart ((markSeen env ctx issueId).run cfg t) := by
  obtain ⟨ht, _⟩ := visiblePart_eq_iff.mp h
  have hown : ReporterService.findOwn t ctx issueId = ReporterService.findOwn s ctx issueId := by
    rw [ht]
    rfl
  simp only [run, ReporterService.markSeen, hown]
  split
  · exact h
  · cases ReporterService.findOwn s ctx issueId with
    | error e => exact h
    | ok own =>
      have hbody := fun db => settle_body env.statement [ReporterService.saveView env.now own.1.id own.2.id] db
      refine (congrArg visiblePart (hbody s)).trans (Eq.trans ?_ (congrArg visiblePart (hbody t)).symm)
      refine visiblePart_commit [] (fun q hq => ?_) env.statement (Prod.ext h rfl)
      cases List.mem_singleton.mp hq
      exact (ignores_saveView _ _ _).agree _

theorem submitCsat_visible (env : Env) (ctx : HandoffContext) (issueId : Uuid) (dto : SubmitCsatDto) (id : Uuid)
    (h : observed [id] s = observed [id] t) :
    visiblePart ((submitCsat env ctx issueId dto id).run cfg s) =
      visiblePart ((submitCsat env ctx issueId dto id).run cfg t) := by
  obtain ⟨ht, _⟩ := visiblePart_eq_iff.mp (Prod.mk.inj h).1
  have hown : ReporterService.findOwn t ctx issueId = ReporterService.findOwn s ctx issueId := by
    rw [ht]
    rfl
  have hflags : CsatService.flags t issueId dto = CsatService.flags s issueId dto := by
    rw [ht]
    rfl
  simp only [run, CsatService.submit, hown, hflags]
  split
  · exact (Prod.mk.inj h).1
  · cases ReporterService.findOwn s ctx issueId with
    | error e => exact (Prod.mk.inj h).1
    | ok own =>
      dsimp only
      split
      · exact (Prod.mk.inj h).1
      · have hresponse : ∀ q ∈ [CsatService.saveResponse ⟨issueId, own.1.id, dto.score.value,
            CsatService.commentOf dto⟩], Agree (observed [id]) q q := by
          intro q hq
          cases List.mem_singleton.mp hq
          exact (ignores_saveResponse _).agree _
        have hsave := Agree.body (agree_of_forall hresponse) env.statement s t h
        cases hs : body env.statement [CsatService.saveResponse ⟨issueId, own.1.id, dto.score.value,
            CsatService.commentOf dto⟩] s with
        | none =>
          rw [hs, Option.map_none] at hsave
          rw [Option.map_eq_none_iff.mp hsave.symm]
          exact (Prod.mk.inj h).1
        | some saved =>
          rw [hs, Option.map_some] at hsave
          obtain ⟨saved', hs', heq⟩ := Option.map_eq_some_iff.mp hsave.symm
          rw [hs']
          dsimp only
          split
          · have hinsert : ∀ q ∈ [(CsatService.flag env.now issueId id dto).insert], Agree (observed [id]) q q := by
              intro q hq
              cases List.mem_singleton.mp hq
              exact agree_insert (by simp [CsatService.flag])
            have hflag := visiblePart_commit [id] hinsert (fun k => env.statement (k + 1)) heq.symm
            unfold commit at hflag
            cases hf : body (fun k => env.statement (k + 1)) [(CsatService.flag env.now issueId id dto).insert] saved <;>
              cases hf' : body (fun k => env.statement (k + 1)) [(CsatService.flag env.now issueId id dto).insert]
                saved' <;>
              simpa [hf, hf'] using hflag
          · exact (Prod.mk.inj heq.symm).1

theorem editComment_run (env : Env) (staff : AuthenticatedStaff) (commentId : Uuid) (text : String) (db : Db) :
    (editComment env staff commentId text).run cfg db =
      if env.read then db
      else match CommentsService.editable db staff commentId with
        | .error _ => db
        | .ok comment => commit env.statement (CommentsService.editStatements env.now staff comment text) db := by
  simp only [run, CommentsService.editComment]
  split
  · rfl
  · cases CommentsService.editable db staff commentId with
    | error e => rfl
    | ok comment => exact settle_body _ _ _

theorem keeps_insert_internal {c : Comment} (hc : c.visibility = .internal) : Keeps visiblePart c.insert := by
  intro s t h
  obtain ⟨cs, hcs, rfl⟩ := Option.map_eq_some_iff.mp h
  have hfilter : cs.filter isVisible = s.comments.filter isVisible := by
    apply Table.ext
    simp [Table.filter, Table.rows_insert hcs, isVisible, hc]
  simp only [visiblePart, hfilter]

theorem visiblePart_saveEdited {now : Time} {id : Uuid} {text : String}
    (h : (db.comments.filter isVisible).findOne id = none) {m : Db}
    (hm : CommentsService.saveEdited now id text db = some m) : visiblePart m = visiblePart db := by
  cases hm
  have hvisible : ∀ c, isVisible (CommentsService.edited now text c) = isVisible c := fun _ => rfl
  have hfixed := Table.update_of_fixed (db.comments.filter isVisible) id (CommentsService.edited now text)
    (CommentsService.edited_id now text) (fun r hr => by rw [h] at hr; cases hr)
  simp only [visiblePart, filter_update (CommentsService.edited_id now text) hvisible, hfixed]

theorem editComment_hidden (env : Env) (staff : AuthenticatedStaff) (commentId : Uuid) (text : String)
    (h : (db.comments.filter isVisible).findOne commentId = none) :
    visiblePart ((editComment env staff commentId text).run cfg db) = visiblePart db := by
  rw [editComment_run]
  split
  · rfl
  · cases hedit : CommentsService.editable db staff commentId with
    | error e => rfl
    | ok comment =>
      have hid : comment.id = commentId := Table.findOne_key (CommentsService.editable_ok hedit).1
      rcases commit_cases env.statement (CommentsService.editStatements env.now staff comment text) db with
        ⟨_, hc⟩ | ⟨t, ht, hc⟩
      · exact congrArg visiblePart hc
      · apply (congrArg visiblePart hc).trans
        obtain ⟨m, hm, hrecord⟩ := body_two ht
        have haudit : visiblePart t = visiblePart m := AuditService.keeps_record (fun _ _ => rfl) _ _ _ _ hrecord
        exact haudit.trans (visiblePart_saveEdited (hid ▸ h) hm)

theorem internal_run {a : Activity} (h : a.Internal db) : visiblePart (a.run cfg db) = visiblePart db := by
  cases a with
  | addComment env staff issueId dto id =>
    have hinternal : dto.visibility = .internal := h
    rw [addComment_run]
    split
    · rfl
    · have hkeeps : ∀ q ∈ CommentsService.addStatements env.now staff issueId id dto, Keeps visiblePart q := by
        intro q hq
        simp only [CommentsService.addStatements, hinternal, reduceCtorEq, if_false, List.nil_append, List.mem_cons,
          List.not_mem_nil, or_false] at hq
        rcases hq with rfl | rfl
        · exact keeps_insert_internal hinternal
        · exact AuditService.keeps_record (fun _ _ => rfl) _ _
      exact Keeps.commit hkeeps env.statement db
  | editComment env staff commentId text =>
    apply editComment_hidden env staff commentId text
    rw [Table.findOne_filter]
    cases hc : db.comments.findOne commentId with
    | none => rfl
    | some c =>
      have hinternal := h c hc
      simp [Option.filter, isVisible, hinternal]
  | intake | request | bulkUpdate | reply | submitCsat | markSeen | statusChanged => exact h.elim

theorem editComment_visible (env : Env) (staff : AuthenticatedStaff) (commentId : Uuid) (text : String)
    (h : visiblePart s = visiblePart t) :
    visiblePart ((editComment env staff commentId text).run cfg s) =
      visiblePart ((editComment env staff commentId text).run cfg t) := by
  obtain ⟨ht, hcomments⟩ := visiblePart_eq_iff.mp h
  cases hs : (s.comments.filter isVisible).findOne commentId with
  | none =>
    rw [editComment_hidden env staff commentId text hs,
      editComment_hidden env staff commentId text (hcomments ▸ hs), h]
  | some c =>
    -- a visible comment is the same row in both databases
    have hrow : ∀ db : Db, (db.comments.filter isVisible).findOne commentId = some c →
        db.comments.findOne commentId = some c := by
      intro db hc
      rw [Table.findOne_filter] at hc
      exact (Option.filter_eq_some_iff.mp hc).1
    have hedit : CommentsService.editable t staff commentId = CommentsService.editable s staff commentId := by
      unfold CommentsService.editable
      rw [hrow s hs, hrow t (hcomments ▸ hs), ht]
    rw [editComment_run, editComment_run, hedit]
    split
    · exact h
    · cases CommentsService.editable s staff commentId with
      | error e => exact h
      | ok comment =>
        refine visiblePart_commit [] (fun q hq => ?_) env.statement (Prod.ext h rfl)
        simp only [CommentsService.editStatements, List.mem_cons, List.not_mem_nil, or_false] at hq
        rcases hq with rfl | rfl
        · exact agree_saveEdited _ _ _ _
        · exact agree_record _ _ _ _

theorem mem_commentOf (env : Env) (evt : IssueEvent) (ids : List (Uuid × Uuid)) (last duplicateId : Uuid) :
    commentOf ids last duplicateId ∈ (statusChanged env evt ids last).commentKeys := by
  unfold commentOf
  cases hid : ids.lookup duplicateId with
  | none => exact List.mem_cons_self
  | some id =>
    obtain ⟨l₁, l₂, hids, -⟩ := List.lookup_eq_some_iff.mp hid
    apply List.mem_cons_of_mem
    rw [hids]
    simp

theorem statusChanged_visible (env : Env) (evt : IssueEvent) (ids : List (Uuid × Uuid)) (last : Uuid)
    (h : observed (statusChanged env evt ids last).commentKeys s =
      observed (statusChanged env evt ids last).commentKeys t) :
    visiblePart ((statusChanged env evt ids last).run cfg s) = visiblePart ((statusChanged env evt ids last).run cfg t) := by
  obtain ⟨ht, _⟩ := visiblePart_eq_iff.mp (Prod.mk.inj h).1
  have hduplicates (issueId : Uuid) : MergeService.duplicatesOf t issueId = MergeService.duplicatesOf s issueId := by
    rw [ht]
    rfl
  simp only [run, MergeService.onCanonicalStatusChanged]
  split
  · exact (Prod.mk.inj h).1
  · rename_i issueId _
    split
    · exact (Prod.mk.inj h).1
    · rw [hduplicates]
      refine visiblePart_commit _ (fun q hq => ?_) env.statement h
      obtain ⟨duplicate, _, hq⟩ := List.mem_flatMap.mp hq
      simp only [List.mem_cons, List.not_mem_nil, or_false] at hq
      rcases hq with rfl | rfl
      · exact agree_insert (mem_commentOf env evt ids last duplicate.id)
      · exact (ignores_touch _ _).agree _

theorem run_visible (a : Activity) (h : visiblePart s = visiblePart t)
    (hkeys : ∀ k ∈ a.commentKeys, s.comments.findOne k = none ∧ t.comments.findOne k = none) :
    visiblePart (a.run cfg s) = visiblePart (a.run cfg t) := by
  have hobserved : observed a.commentKeys s = observed a.commentKeys t := by
    refine Prod.ext h (List.map_congr_left fun k hk => ?_)
    rw [(hkeys k hk).1, (hkeys k hk).2]
  cases a with
  | intake env ctx dto stored ids => exact intake_visible env ctx dto stored ids h
  | request env r => exact request_visible env r hobserved
  | bulkUpdate env staff dto => exact bulkUpdate_visible env staff dto h
  | addComment env staff issueId dto id => exact addComment_visible env staff issueId dto id hobserved
  | editComment env staff commentId text => exact editComment_visible env staff commentId text h
  | reply env ctx issueId text id => exact reply_visible env ctx issueId text id hobserved
  | submitCsat env ctx issueId dto id => exact submitCsat_visible env ctx issueId dto id hobserved
  | markSeen env ctx issueId => exact markSeen_visible env ctx issueId h
  | statusChanged env evt ids last => exact statusChanged_visible env evt ids last hobserved

end Activity

open ReporterService

theorem getIssueForReporter_visiblePart (db : Db) (ctx : HandoffContext) (issueId : Uuid) :
    getIssueForReporter (visiblePart db) ctx issueId = getIssueForReporter db ctx issueId := by
  have hcomments : ∀ i, visibleComments (visiblePart db) i = visibleComments db i := by
    intro i
    simp only [visibleComments, visiblePart, Table.filter, List.filter_filter]
    apply List.filter_congr
    intro c _
    cases hv : isVisible c <;> simp_all [isVisible]
  have hdetail : ∀ locale i, detail (visiblePart db) locale i = detail db locale i := by
    intro locale i
    simp only [detail, hcomments]
    rfl
  have hown : findOwn (visiblePart db) ctx issueId = findOwn db ctx issueId := rfl
  simp only [getIssueForReporter, hown, hdetail]

def SameAnswers (ctx : HandoffContext) (p : Db × Db) : Prop :=
  listForReporter p.1 ctx = listForReporter p.2 ctx ∧
    ∀ issueId, getIssueForReporter p.1 ctx issueId = getIssueForReporter p.2 ctx issueId

theorem sameAnswers_of_visiblePart {ctx : HandoffContext} {p : Db × Db} (h : visiblePart p.1 = visiblePart p.2) :
    SameAnswers ctx p := by
  refine ⟨?_, fun issueId => ?_⟩
  · exact (congrArg (fun db => listForReporter db ctx) h :)
  · rw [← getIssueForReporter_visiblePart p.1, h, getIssueForReporter_visiblePart]

namespace TwoRuns

inductive Step
  | both (a : Activity)
  | first (a : Activity)
  | second (a : Activity)

def step (cfg : Config) (p : Db × Db) : Step → Db × Db
  | .both a => (a.run cfg p.1, a.run cfg p.2)
  | .first a => (a.run cfg p.1, p.2)
  | .second a => (p.1, a.run cfg p.2)

def Permitted (p : Db × Db) : Step → Prop
  | .both a => ∀ k ∈ a.commentKeys, p.1.comments.findOne k = none ∧ p.2.comments.findOne k = none
  | .first a => a.Internal p.1
  | .second a => a.Internal p.2

instance decidableInternal (db : Db) : (a : Activity) → Decidable (a.Internal db)
  | .addComment _ _ _ dto _ => inferInstanceAs (Decidable (dto.visibility = .internal))
  | .editComment _ _ commentId _ =>
    inferInstanceAs (Decidable (∀ c ∈ db.comments.findOne commentId, c.visibility = .internal))
  | .intake _ _ _ _ _ | .request _ _ | .bulkUpdate _ _ _ | .reply _ _ _ _ _ | .submitCsat _ _ _ _ _ | .markSeen _ _ _
  | .statusChanged _ _ _ _ => isFalse id

instance decidablePermitted (p : Db × Db) : (a : Step) → Decidable (Permitted p a)
  | .both a => inferInstanceAs (Decidable (∀ k ∈ a.commentKeys,
      p.1.comments.findOne k = none ∧ p.2.comments.findOne k = none))
  | .first a => inferInstanceAs (Decidable (a.Internal p.1))
  | .second a => inferInstanceAs (Decidable (a.Internal p.2))

theorem step_visible (cfg : Config) (p : Db × Db) (a : Step) (h : visiblePart p.1 = visiblePart p.2)
    (ha : Permitted p a) : visiblePart (step cfg p a).1 = visiblePart (step cfg p a).2 := by
  cases a with
  | both a => exact Activity.run_visible a h ha
  | first a => exact (Activity.internal_run ha).trans h
  | second a => exact h.trans (Activity.internal_run ha).symm

theorem always_sameAnswers (cfg : Config) (ctx : HandoffContext) {s t : Db} (h : visiblePart s = visiblePart t)
    {as : List Step} (has : EveryStep (step cfg) Permitted (s, t) as) :
    Always (step cfg) (SameAnswers ctx) (s, t) as :=
  (always_of_everyStep (I := fun p : Db × Db => visiblePart p.1 = visiblePart p.2)
    (fun p a hp ha => step_visible cfg p a hp ha) h has).mono fun _ hp => sameAnswers_of_visiblePart hp

end TwoRuns

/-- What a merge may not touch when the duplicate is `issueId`: all that other issues' reporters see
beside the issue rows. -/
def besides (issueId : Uuid) (db : Db) :=
  (db.reporters, db.views, db.csatResponses, db.attachments,
    db.comments.rows.filter fun c => c.issue ≠ issueId && isVisible c)

theorem keeps_besides_insert {issueId : Uuid} {c : Comment} (hc : c.issue = issueId ∨ c.visibility = .internal) :
    Keeps (besides issueId) c.insert := by
  intro s t h
  obtain ⟨cs, hcs, rfl⟩ := Option.map_eq_some_iff.mp h
  have hhidden : (decide (c.issue ≠ issueId) && isVisible c) = false := by
    rcases hc with hissue | hinternal
    · simp [hissue]
    · simp [isVisible, hinternal]
  simp only [besides, Table.rows_insert hcs, List.filter_append, List.filter_cons, hhidden, List.filter_nil]
  simp

theorem besides_of_merge {env : Env} {staff : AuthenticatedStaff} {duplicate : IssueEntity} {canonicalId : Uuid}
    {ids : MergeIds} {s t : Db}
    (h : (MergeService.mergeWrite env.now staff duplicate canonicalId ids).body env s = some t) :
    besides duplicate.id t = besides duplicate.id s := by
  refine Write.keeps_body (fun _ _ => rfl) (fun _ _ => rfl) ?_ s t h
  exact MergeService.keeps_others (fun _ _ => rfl) (fun _ _ => rfl) (keeps_besides_insert (.inl rfl))
    (keeps_besides_insert (.inr rfl))

theorem visibleComments_besides {issueId i : Uuid} (db : Db) (hi : i ≠ issueId) :
    visibleComments db i = (besides issueId db).2.2.2.2.filter fun c => c.issue = i := by
  simp only [visibleComments, besides, List.filter_filter]
  apply List.filter_congr
  intro c _
  by_cases hc : c.issue = i
  · simp [hc, hi, isVisible]
  · simp [hc]

theorem ownIssues_update {db : Db} {id reporterId : Uuid} {f : Issue → Issue} (hf : ∀ r, (f r).id = r.id)
    (hreporter : ∀ r, (f r).reporter = r.reporter)
    (hother : ∀ r, db.issues.findOne id = some r → r.reporter ≠ reporterId) :
    ((db.issues.update id f hf).rows.filter fun i => i.reporter = reporterId) =
      db.issues.rows.filter fun i => i.reporter = reporterId := by
  have hsame : ((fun i : Issue => decide (i.reporter = reporterId)) ∘ fun r => if r.id = id then f r else r) =
      fun i => decide (i.reporter = reporterId) := by
    funext r
    simp only [Function.comp_apply]
    split
    · rw [hreporter]
    · rfl
  simp only [Table.update, List.filter_map, hsame]
  refine (List.map_congr_left fun r hr => ?_).trans (List.map_id _)
  obtain ⟨hmem, hown⟩ := List.mem_filter.mp hr
  apply if_neg
  intro hid
  exact hother r (hid ▸ Table.findOne_of_mem hmem) (of_decide_eq_true hown)

theorem sameAnswers_of_besides {ctx : HandoffContext} {db merged : Db} {id : Uuid} {f : Issue → Issue}
    (hf : ∀ r, (f r).id = r.id) (hreporter : ∀ r, (f r).reporter = r.reporter)
    (hissues : merged.issues = db.issues.update id f hf) (hbesides : besides id merged = besides id db)
    (hother : ∀ r ∈ findReporter db ctx, ∀ d ∈ db.issues.findOne id, d.reporter ≠ r.id) :
    SameAnswers ctx (merged, db) := by
  have hcomments : ∀ i, i ≠ id → visibleComments merged i = visibleComments db i := by
    intro i hi
    rw [visibleComments_besides merged hi, visibleComments_besides db hi, hbesides]
  simp only [besides, Prod.mk.injEq] at hbesides
  obtain ⟨hreporters, hviews, hcsat, hattachments, _⟩ := hbesides
  have hfind : findReporter merged ctx = findReporter db ctx := by simp only [findReporter, hreporters]
  cases hown : findReporter db ctx with
  | none => simp [SameAnswers, listForReporter, getIssueForReporter, findOwn, hfind, hown]
  | some reporter =>
    have hforeign := hother reporter hown
    constructor
    · have hsummary : summary merged reporter.id = summary db reporter.id := by
        funext i
        simp only [summary, lastViewed, hviews]
      simp only [listForReporter, hfind, hown, hsummary, hissues, ownIssues_update hf hreporter hforeign]
    · intro i
      simp only [getIssueForReporter, findOwn, hfind, hown, hissues, Table.findOne_update _ _ _ hf]
      by_cases hi : i = id
      · subst hi
        cases hd : db.issues.findOne i with
        | none => simp [bind, Except.bind]
        | some d =>
          have hne := hforeign d hd
          simp [hreporter, hne, bind, Except.bind]
      · rw [if_neg hi]
        cases hd : db.issues.findOne i with
        | none => rfl
        | some d =>
          have hid : d.id ≠ id := fun he => hi ((Table.findOne_key hd).symm.trans he)
          have hdetail : detail merged ctx.locale d = detail db ctx.locale d := by
            simp only [detail, hcsat, hattachments, hcomments d.id hid]
          dsimp only
          split
          · simp [bind, Except.bind, pure, Except.pure, hdetail]
          · rfl

theorem sameAnswers_of_merge (cfg : Config) (ctx : HandoffContext) (db : Db) (env : Env) (staff : AuthenticatedStaff)
    (issueId : Uuid) (dto : MergeIssueDto) (ids : MergeIds)
    (hother : ∀ r ∈ findReporter db ctx, ∀ d ∈ db.issues.findOne issueId, d.reporter ≠ r.id) :
    SameAnswers ctx ((Request.merge staff issueId dto ids).run cfg env db, db) := by
  rcases Operation.request_cases cfg env db (.merge staff issueId dto ids) with hsame | ⟨w, hloads, _, hbody⟩
  · rw [hsame]
    exact ⟨rfl, fun _ => rfl⟩
  · generalize (Request.merge staff issueId dto ids).run cfg env db = merged at hbody
    obtain @⟨_, _, _, _, duplicate, canonical, root, hduplicate⟩ := hloads
    have hid : duplicate.id = issueId := Table.findOne_key hduplicate
    subst hid
    have hbesides := besides_of_merge hbody
    exact sameAnswers_of_besides _ (fun row => by simp) (Write.body_spec hbody).1 hbesides hother

/-- Internal comments, and edits of them, show nowhere on a reporter's pages, whatever else is done
alongside; nor does the merge of another reporter's issue. -/
theorem internal_activity_hidden (cfg : Config) (ctx : HandoffContext) :
    (∀ (s t : Db) (as : List TwoRuns.Step), visiblePart s = visiblePart t →
      EveryStep (TwoRuns.step cfg) TwoRuns.Permitted (s, t) as →
        Always (TwoRuns.step cfg) (SameAnswers ctx) (s, t) as) ∧
    ∀ (db : Db) (env : Env) (staff : AuthenticatedStaff) (issueId : Uuid) (dto : MergeIssueDto) (ids : MergeIds),
      (∀ r ∈ findReporter db ctx, ∀ d ∈ db.issues.findOne issueId, d.reporter ≠ r.id) →
        SameAnswers ctx ((Request.merge staff issueId dto ids).run cfg env db, db) :=
  ⟨fun _ _ _ h has => TwoRuns.always_sameAnswers cfg ctx h has, sameAnswers_of_merge cfg ctx⟩

namespace Sample

def notesAside : List TwoRuns.Step :=
  [ .both (.intake { now := 0 } context ⟨"It does not load", none⟩ [] ⟨"A", "reporter", "A"⟩),
    .both (.intake { now := 1 } { context with portalUserId := "other" } ⟨"It is slow", none⟩ []
      ⟨"B", "reporter-2", "B"⟩),
    .second (.addComment { now := 2 } admin "A" ⟨"Seen before", .internal, []⟩ "note"),
    .second (.editComment { now := 3 } admin "note" "Seen last week"),
    .both (.addComment { now := 4 } admin "A" ⟨"We are on it", .reporterVisible, []⟩ "answer"),
    .second (.addComment { now := 5 } admin "A" ⟨"Fixed by hand", .internal, []⟩ "note-2"),
    .both (.markSeen { now := 6 } context "A"),
    .both (.reply { now := 7 } context "A" "Thank you" "reply"),
    .both (.request { now := 8 } (.changeStatus admin "A" ⟨.inProgress, 3⟩)),
    .both (.request { now := 9 } (.changeStatus admin "A" ⟨.resolved, 4⟩)),
    .both (.statusChanged { now := 9 } (.statusChanged "A" "P" .inProgress .resolved "admin") [] "fan-out"),
    .both (.submitCsat { now := 10 } context "A" ⟨.down, none⟩ "flag") ]

def twoIssues : Db := (exec (TwoRuns.step config) (Db.empty, Db.empty) notesAside).1

end Sample

theorem internal_activity_hidden_notesAside :
    Always (TwoRuns.step Sample.config) (SameAnswers Sample.context) (Db.empty, Db.empty) Sample.notesAside ∧
      SameAnswers Sample.context ((Request.merge Sample.admin "B" ⟨"A", 1⟩ ⟨"link", "comment-1", "comment-2"⟩).run
        Sample.config { now := 11 } Sample.twoIssues, Sample.twoIssues) :=
  ⟨(internal_activity_hidden Sample.config Sample.context).1 Db.empty Db.empty Sample.notesAside rfl (by decide),
    (internal_activity_hidden Sample.config Sample.context).2 Sample.twoIssues { now := 11 } Sample.admin "B"
      ⟨"A", 1⟩ ⟨"link", "comment-1", "comment-2"⟩ (by decide)⟩

end Cimp
