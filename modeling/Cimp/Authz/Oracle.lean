import Cimp.Authz.Guard
import Cimp.Comments.Staff
import Cimp.Issues.BulkUpdate
import Cimp.Issues.Operation
import Cimp.Issues.Related

namespace Cimp

inductive Response
  | merged (canonicalIssueId : Option Uuid)
  | link (view : IssueLinkView)
  | labels (labels : List LabelView)
  | bulk (updated : ℕ) (skipped : List (Uuid × String))
  | comment (comment : Option Comment)
  | file (file : ServableFile)
  | other (body : String)
deriving DecidableEq, Repr

abbrev Outcome := Except HttpException Response × Db

/-- The requests that name an issue, a label, a comment or an attachment by an id of the client's
choice, that id left open. In a batch the other ids stand on either side of it; behind a guarded
issue route stands any handler. -/
inductive Endpoint
  | merge (issueId : Uuid) (version : ℕ) (ids : MergeIds)
  | createLink (issueId : Uuid) (type : IssueLinkType) (id : Uuid)
  | addLabel (issueId : Uuid)
  | bulkUpdate (before after : List Uuid) (op : BulkOp) (value : Option String)
  | issueRoute (required : List Role) (handler : Db → Uuid → Outcome)
  | editComment (body : String)
  | downloadAttachment (storage : String → Except HttpException (List UInt8))

namespace Endpoint

def guarded (env : Env) (db : Db) (staff : AuthenticatedStaff) (required : List Role) (issueId : Uuid)
    (service : Outcome) : Outcome :=
  if env.read then (.error .internalServerError, db)
  else match PlatformAccessGuard.canActivate db staff required issueId with
    | .error e => (.error e, db)
    | .ok _ => service

def merged (env : Env) (db : Db) (staff : AuthenticatedStaff) (issueId : Uuid) (dto : MergeIssueDto)
    (ids : MergeIds) : Outcome :=
  match MergeService.merge env.now db staff issueId dto ids with
  | .error e => (.error e, db)
  | .ok w =>
    match w.body env db with
    | none => (.error .internalServerError, db)
    | some saved => (.ok (.merged (w.issue.duplicateOf.getD none)), saved)

def handle (cfg : Config) (env : Env) (envs : ℕ → Env) (db : Db) (staff : AuthenticatedStaff) (ref : Uuid) :
    Endpoint → Outcome
  | .merge issueId version ids =>
    guarded env db staff staffWriteRoles issueId (merged env db staff issueId ⟨ref, version⟩ ids)
  | .createLink issueId type id =>
    let created := IssueLinksService.create env staff issueId ⟨ref, type⟩ id db
    guarded env db staff staffWriteRoles issueId (created.1.map .link, created.2)
  | .addLabel issueId =>
    let added := LabelsService.addToIssue env issueId ref db
    guarded env db staff staffWriteRoles issueId (added.1.map .labels, added.2)
  | .bulkUpdate before after op value =>
    match PlatformAccessGuard.canActivateAnywhere staff staffWriteRoles with
    | .error e => (.error e, db)
    | .ok _ =>
      match IssuesService.bulkUpdate cfg envs db staff ⟨before ++ ref :: after, op, value⟩ with
      | .error e => (.error e, db)
      | .ok run => (.ok (.bulk run.updated run.skipped), run.db)
  | .issueRoute required handler => guarded env db staff required ref (handler db ref)
  | .editComment body =>
    match CommentsService.editComment env staff ref body db with
    | .error e => (.error e, db)
    | .ok saved => (.ok (.comment (saved.comments.findOne ref)), saved)
  | .downloadAttachment storage => ((AttachmentsService.getForStaff storage db staff ref).map .file, db)

def Foreign (db : Db) (staff : AuthenticatedStaff) (ref : Uuid) : Endpoint → Prop
  | .addLabel _ => ∃ label, db.labels.findOne ref = some label ∧ staff.Outside label.platform
  | .editComment _ => ∃ comment issue, db.comments.findOne ref = some comment ∧
      db.issues.findOne comment.issue = some issue ∧ staff.Outside issue.platform
  | .downloadAttachment _ => ∃ attachment issue, db.attachments.findOne ref = some attachment ∧
      db.issues.findOne attachment.issue = some issue ∧ staff.Outside issue.platform
  | _ => ∃ issue, db.issues.findOne ref = some issue ∧ staff.Outside issue.platform

structure Nowhere (db : Db) (ref : Uuid) : Prop where
  issues : db.issues.findOne ref = none
  labels : db.labels.findOne ref = none
  comments : db.comments.findOne ref = none
  attachments : db.attachments.findOne ref = none

/-- A batch answers with the ids it was sent: there the two ids compared are not told apart. -/
def rename (ref ref' : Uuid) (skip : Uuid × String) : Uuid × String :=
  (if skip.1 = ref then ref' else skip.1, skip.2)

def Response.rename (ref ref' : Uuid) : Response → Response
  | .bulk updated skipped => .bulk updated (skipped.map (Endpoint.rename ref ref'))
  | r => r

def Outcome.rename (ref ref' : Uuid) (o : Outcome) : Outcome := (o.1.map (Response.rename ref ref'), o.2)

/-- The requests that keep a foreign id secret: all but comment edits, and merges, links and labels
only where the guard refuses the issue they start from. -/
def Hides (env : Env) (db : Db) (staff : AuthenticatedStaff) : Endpoint → Prop
  | .merge issueId _ _ | .createLink issueId _ _ | .addLabel issueId =>
    env.read = true ∨ ¬ PlatformAccessGuard.Admits db staff staffWriteRoles issueId
  | .editComment _ => env.read = true
  | _ => True

variable {cfg : Config} {env : Env} {envs : ℕ → Env} {db : Db} {staff : AuthenticatedStaff} {ref ref' : Uuid}

open IssuesService Execution

theorem bulkStep_platform {change : BulkChange} {run : BulkRun} {item : Uuid × ℕ} {i platform : Uuid}
    (h : ∃ issue, run.db.issues.findOne i = some issue ∧ issue.platform = platform) :
    ∃ issue, (bulkStep cfg envs staff change run item).db.issues.findOne i = some issue ∧
      issue.platform = platform := by
  obtain ⟨issue, hissue, hplatform⟩ := h
  rcases bulkStep_cases cfg envs staff change run item with hsame | ⟨w, _, hbody⟩
  · exact ⟨issue, by rw [hsame, hissue], hplatform⟩
  · rw [Write.findOne_of_body hbody, hissue]
    split
    · exact ⟨_, rfl, by simpa using hplatform⟩
    · exact ⟨issue, rfl, hplatform⟩

theorem bulkStep_none {change : BulkChange} {run : BulkRun} {item : Uuid × ℕ} {i : Uuid}
    (h : run.db.issues.findOne i = none) :
    (bulkStep cfg envs staff change run item).db.issues.findOne i = none := by
  rcases bulkStep_cases cfg envs staff change run item with hsame | ⟨w, _, hbody⟩
  · rw [hsame, h]
  · rw [Write.findOne_of_body hbody, h]
    split <;> rfl

def skipped (env : Env) : String := if env.read then env.message else notVisibleReason

theorem bulkStep_foreign {change : BulkChange} {run : BulkRun} {k : ℕ} {issue : Issue}
    (hissue : run.db.issues.findOne ref = some issue) (hout : staff.Outside issue.platform) :
    bulkStep cfg envs staff change run (ref, k) =
      { run with skipped := run.skipped ++ [(ref, skipped (envs k))] } := by
  cases hread : (envs k).read with
  | true => simp [bulkStep, bulkWrite, hread, skipped]
  | false =>
    have hno : ScopeService.canAccessPlatform staff (issue.toEntity { assignee := true }).platform
        staffWriteRoles = false := hout.canAccessPlatform _
    simp [bulkStep, bulkWrite, hread, skipped, loadForWrite, hissue, hno]

theorem bulkStep_nowhere {change : BulkChange} {run : BulkRun} {k : ℕ}
    (hissue : run.db.issues.findOne ref' = none) :
    bulkStep cfg envs staff change run (ref', k) =
      { run with skipped := run.skipped ++ [(ref', skipped (envs k))] } := by
  cases hread : (envs k).read with
  | true => simp [bulkStep, bulkWrite, hread, skipped]
  | false =>
    simp [bulkStep, bulkWrite, hread, skipped, loadForWrite, hissue, skipReason, HttpException.notFound]

def SameBut (ref ref' : Uuid) (run run' : BulkRun) : Prop :=
  run'.db = run.db ∧ run'.updated = run.updated ∧ run'.events = run.events ∧
    run'.skipped.map (rename ref ref') = run.skipped.map (rename ref ref')

theorem bulkStep_sameBut {change : BulkChange} {run run' : BulkRun} (item : Uuid × ℕ)
    (h : SameBut ref ref' run run') :
    SameBut ref ref' (bulkStep cfg envs staff change run item) (bulkStep cfg envs staff change run' item) := by
  obtain ⟨hdb, hupdated, hevents, hskipped⟩ := h
  unfold bulkStep
  rw [hdb]
  split
  · exact ⟨rfl, hupdated, hevents, by simp only [List.map_append, hskipped]⟩
  · split
    · exact ⟨rfl, hupdated, hevents, by simp only [List.map_append, hskipped]⟩
    · exact ⟨rfl, by simp only [hupdated], by simp only [hevents], hskipped⟩

theorem bulk_sameBut (change : BulkChange) (before after : List Uuid) {issue : Issue}
    (hissue : db.issues.findOne ref = some issue) (hout : staff.Outside issue.platform)
    (hnowhere : db.issues.findOne ref' = none) :
    SameBut ref ref' (exec (bulkStep cfg envs staff change) ⟨db, 0, [], []⟩ (before ++ ref :: after).zipIdx)
      (exec (bulkStep cfg envs staff change) ⟨db, 0, [], []⟩ (before ++ ref' :: after).zipIdx) := by
  simp only [List.zipIdx_append, List.zipIdx_cons, exec_append, exec_cons]
  have hstep : ∀ (run : BulkRun) item,
      (∃ i, run.db.issues.findOne ref = some i ∧ i.platform = issue.platform) ∧ run.db.issues.findOne ref' = none →
        (∃ i, (bulkStep cfg envs staff change run item).db.issues.findOne ref = some i ∧
          i.platform = issue.platform) ∧
            (bulkStep cfg envs staff change run item).db.issues.findOne ref' = none :=
    fun _ _ hrun => ⟨bulkStep_platform hrun.1, bulkStep_none hrun.2⟩
  have hbefore := exec_of_step
    (I := fun run : BulkRun => (∃ i, run.db.issues.findOne ref = some i ∧ i.platform = issue.platform) ∧
      run.db.issues.findOne ref' = none)
    hstep (s := ⟨db, 0, [], []⟩) ⟨⟨issue, hissue, rfl⟩, hnowhere⟩ before.zipIdx
  generalize exec (bulkStep cfg envs staff change) ⟨db, 0, [], []⟩ before.zipIdx = run at hbefore
  obtain ⟨⟨stored, hstored, hplatform⟩, hnone⟩ := hbefore
  rw [bulkStep_foreign hstored (hplatform ▸ hout), bulkStep_nowhere hnone]
  have hskip : ∀ message, SameBut ref ref' { run with skipped := run.skipped ++ [(ref, message)] }
      { run with skipped := run.skipped ++ [(ref', message)] } :=
    fun message => ⟨rfl, rfl, rfl, by simp [rename]⟩
  exact exec_related (R := SameBut ref ref') (fun _ _ item h => bulkStep_sameBut item h) (hskip _) _

theorem bulkUpdate_hides {before after : List Uuid} {op : BulkOp} {value : Option String} {issue : Issue}
    (hissue : db.issues.findOne ref = some issue) (hout : staff.Outside issue.platform)
    (hnowhere : db.issues.findOne ref' = none) :
    Outcome.rename ref ref' ((Endpoint.bulkUpdate before after op value).handle cfg env envs db staff ref) =
      Outcome.rename ref ref' ((Endpoint.bulkUpdate before after op value).handle cfg env envs db staff ref') := by
  have hchange : ∀ ids, bulkChange cfg ⟨ids, op, value⟩ = bulkChange cfg ⟨[], op, value⟩ := fun _ => rfl
  have hrun : ∀ change, SameBut ref ref'
      (exec (bulkStep cfg envs staff change) ⟨db, 0, [], []⟩ (before ++ ref :: after).zipIdx)
      (exec (bulkStep cfg envs staff change) ⟨db, 0, [], []⟩ (before ++ ref' :: after).zipIdx) :=
    fun change => bulk_sameBut change before after hissue hout hnowhere
  simp only [handle, IssuesService.bulkUpdate, hchange (before ++ ref :: after), hchange (before ++ ref' :: after)]
  cases PlatformAccessGuard.canActivateAnywhere staff staffWriteRoles with
  | error e => rfl
  | ok _ =>
    by_cases hscope : ScopeService.scopedPlatformIds staff = .ids []
    · simp [hscope, Outcome.rename, Response.rename, Except.map, rename]
    · simp only [hscope, if_false]
      cases bulkChange cfg ⟨[], op, value⟩ with
      | error e => rfl
      | ok change =>
        obtain ⟨hdb, hupdated, _, hskipped⟩ := hrun change
        simp only [bind, Except.bind, pure, Except.pure, Outcome.rename, Response.rename, Except.map, hdb,
          hupdated, hskipped]

theorem guarded_refused {service service' : Outcome} {issueId : Uuid}
    (h : env.read = true ∨ ¬ PlatformAccessGuard.Admits db staff staffWriteRoles issueId) :
    guarded env db staff staffWriteRoles issueId service = guarded env db staff staffWriteRoles issueId service' := by
  unfold guarded
  split
  · rfl
  · rename_i hread
    obtain ⟨e, he⟩ := PlatformAccessGuard.canActivate_of_not_admits (h.resolve_left hread)
    rw [he]

theorem guarded_admitted {service : Outcome} {issueId : Uuid} (hread : env.read = false)
    (h : PlatformAccessGuard.Admits db staff staffWriteRoles issueId) :
    guarded env db staff staffWriteRoles issueId service = service := by
  simp [guarded, hread, PlatformAccessGuard.canActivate_of_admits h]

theorem platform_ne_of_admits {issue target : Issue} {required : List Role} {issueId : Uuid}
    (h : PlatformAccessGuard.Admits db staff required issueId) (hissue : db.issues.findOne issueId = some issue)
    (hout : staff.Outside target.platform) : issue.platform ≠ target.platform := by
  obtain ⟨found, hfound, hgrant⟩ := h.granted
  rw [hissue] at hfound
  cases hfound
  intro he
  rw [he, hout.canAccessPlatform] at hgrant
  cases hgrant

theorem guarded_hides_iff {service service' : Outcome} {issueId : Uuid}
    (hdiffers : PlatformAccessGuard.Admits db staff staffWriteRoles issueId → env.read = false →
      Outcome.rename ref ref' service ≠ Outcome.rename ref ref' service') :
    Outcome.rename ref ref' (guarded env db staff staffWriteRoles issueId service) =
        Outcome.rename ref ref' (guarded env db staff staffWriteRoles issueId service') ↔
      env.read = true ∨ ¬ PlatformAccessGuard.Admits db staff staffWriteRoles issueId := by
  constructor
  · intro heq
    by_contra hnot
    obtain ⟨hread, hadmits⟩ := not_or.mp hnot
    simp only [Bool.not_eq_true] at hread
    simp only [not_not] at hadmits
    rw [guarded_admitted hread hadmits, guarded_admitted hread hadmits] at heq
    exact hdiffers hadmits hread heq
  · intro h
    rw [guarded_refused h]

theorem ref_ne {issue target : Issue} {issueId : Uuid} (hissue : db.issues.findOne issueId = some issue)
    (htarget : db.issues.findOne ref = some target) (hplatform : issue.platform ≠ target.platform) : issueId ≠ ref := by
  apply Table.ne_of_findOne hissue
  intro row hrow hsame
  rw [htarget] at hrow
  cases hrow
  exact hplatform (congrArg Issue.platform hsame.symm)

theorem merged_foreign {issue target : Issue} {issueId : Uuid} {version : ℕ} {ids : MergeIds}
    (hissue : db.issues.findOne issueId = some issue) (htarget : db.issues.findOne ref = some target)
    (hplatform : issue.platform ≠ target.platform) :
    merged env db staff issueId ⟨ref, version⟩ ids =
      (.error (.unprocessableEntity "Issues can only be merged within the same platform."), db) := by
  have hne : issueId ≠ ref := ref_ne hissue htarget hplatform
  have hcross : ¬ (issue.toEntity { duplicateOf := true }).platform =
    (target.toEntity { duplicateOf := true }).platform := hplatform
  simp [merged, MergeService.merge, MergeService.findOne, hissue, htarget, hne, hcross, require, bind, Except.bind]

theorem merged_nowhere {issueId : Uuid} {version : ℕ} {ids : MergeIds} (hne : issueId ≠ ref')
    (htarget : db.issues.findOne ref' = none) :
    merged env db staff issueId ⟨ref', version⟩ ids = (.error (.notFound "Issue not found"), db) := by
  cases hissue : db.issues.findOne issueId <;>
    simp [merged, MergeService.merge, MergeService.findOne, hissue, htarget, hne, require, bind, Except.bind]

theorem create_foreign {issue target : Issue} {issueId id : Uuid} {type : IssueLinkType} (hread : env.read = false)
    (hissue : db.issues.findOne issueId = some issue) (htarget : db.issues.findOne ref = some target)
    (hplatform : issue.platform ≠ target.platform) :
    IssueLinksService.create env staff issueId ⟨ref, type⟩ id db =
      (.error (.badRequest "Issues can only be linked within the same platform."), db) := by
  have hne : issueId ≠ ref := ref_ne hissue htarget hplatform
  simp [IssueLinksService.create, hread, hissue, htarget, hne, hplatform]

theorem create_nowhere {issueId id : Uuid} {type : IssueLinkType} (hread : env.read = false) (hne : issueId ≠ ref')
    (htarget : db.issues.findOne ref' = none) :
    IssueLinksService.create env staff issueId ⟨ref', type⟩ id db = (.error (.notFound "Issue not found."), db) := by
  cases hissue : db.issues.findOne issueId <;> simp [IssueLinksService.create, hread, hissue, htarget, hne]

theorem addToIssue_foreign {issue : Issue} {label : Label} {issueId : Uuid} (hread : env.read = false)
    (hissue : db.issues.findOne issueId = some issue) (hlabel : db.labels.findOne ref = some label)
    (hplatform : label.platform ≠ issue.platform) :
    LabelsService.addToIssue env issueId ref db =
      (.error (.badRequest "Label belongs to a different platform."), db) := by
  simp [LabelsService.addToIssue, hread, hissue, hlabel, hplatform]

theorem addToIssue_nowhere {issue : Issue} {issueId : Uuid} (hread : env.read = false)
    (hissue : db.issues.findOne issueId = some issue) (hlabel : db.labels.findOne ref' = none) :
    LabelsService.addToIssue env issueId ref' db = (.error (.notFound "Label not found."), db) := by
  simp [LabelsService.addToIssue, hread, hissue, hlabel]

/-- A request cannot tell a foreign id from one that exists nowhere exactly when it is one of those
that hide it. -/
theorem ids_indistinguishable_iff_hides (cfg : Config) (env : Env) (envs : ℕ → Env) (db : Db)
    (staff : AuthenticatedStaff) (ref ref' : Uuid) (request : Endpoint)
    (hforeign : request.Foreign db staff ref) (hnowhere : Nowhere db ref') :
    Outcome.rename ref ref' (request.handle cfg env envs db staff ref) =
        Outcome.rename ref ref' (request.handle cfg env envs db staff ref') ↔
      request.Hides env db staff := by
  cases request with
  | merge issueId version ids =>
    obtain ⟨target, htarget, hout⟩ := hforeign
    apply guarded_hides_iff
    intro hadmits hread
    obtain ⟨issue, hissue, _⟩ := hadmits.granted
    have hne : issueId ≠ ref' := Table.ne_of_findOne hissue (by simp [hnowhere.issues])
    rw [merged_foreign hissue htarget (platform_ne_of_admits hadmits hissue hout), merged_nowhere hne hnowhere.issues]
    simp [Outcome.rename, Except.map, HttpException.unprocessableEntity, HttpException.notFound]
  | createLink issueId type id =>
    obtain ⟨target, htarget, hout⟩ := hforeign
    apply guarded_hides_iff
    intro hadmits hread
    obtain ⟨issue, hissue, _⟩ := hadmits.granted
    have hne : issueId ≠ ref' := Table.ne_of_findOne hissue (by simp [hnowhere.issues])
    rw [create_foreign hread hissue htarget (platform_ne_of_admits hadmits hissue hout),
      create_nowhere hread hne hnowhere.issues]
    simp [Outcome.rename, Except.map, HttpException.badRequest, HttpException.notFound]
  | addLabel issueId =>
    obtain ⟨label, hlabel, hout⟩ := hforeign
    apply guarded_hides_iff
    intro hadmits hread
    obtain ⟨issue, hissue, hgrant⟩ := hadmits.granted
    have hplatform : label.platform ≠ issue.platform := by
      intro he
      rw [← he, hout.canAccessPlatform] at hgrant
      cases hgrant
    rw [addToIssue_foreign hread hissue hlabel hplatform, addToIssue_nowhere hread hissue hnowhere.labels]
    simp [Outcome.rename, Except.map, HttpException.badRequest, HttpException.notFound]
  | bulkUpdate before after op value =>
    obtain ⟨issue, hissue, hout⟩ := hforeign
    exact iff_of_true (bulkUpdate_hides hissue hout hnowhere.issues) trivial
  | issueRoute required handler =>
    obtain ⟨issue, hissue, hout⟩ := hforeign
    refine iff_of_true ?_ trivial
    simp only [handle, guarded, PlatformAccessGuard.canActivate_outside hissue hout,
      PlatformAccessGuard.canActivate_missing hnowhere.issues]
  | editComment body =>
    obtain ⟨comment, issue, hcomment, hissue, hout⟩ := hforeign
    obtain ⟨message, hforbidden⟩ := CommentsService.editable_outside hcomment hissue hout
    cases hread : env.read with
    | true => simp [handle, CommentsService.editComment, Hides, hread]
    | false =>
      have hmissing : CommentsService.editable db staff ref' = .error (.notFound "Comment not found") := by
        simp [CommentsService.editable, hnowhere.comments]
      simp [handle, CommentsService.editComment, Hides, hread, hforbidden, hmissing, Outcome.rename, Except.map,
        bind, Except.bind, HttpException.forbidden, HttpException.notFound]
  | downloadAttachment storage =>
    obtain ⟨attachment, issue, hattachment, hissue, hout⟩ := hforeign
    refine iff_of_true ?_ trivial
    simp [handle, AttachmentsService.getForStaff, hattachment, hissue, hout.canAccessPlatform,
      hnowhere.attachments, require, bind, Except.bind]

end Endpoint

namespace Sample

open Execution

def webIssue : Uuid := "11111111-1111-1111-1111-111111111111"

def erpIssue : Uuid := "22222222-2222-2222-2222-222222222222"

def noIssue : Uuid := "33333333-3333-3333-3333-333333333333"

def twoPlatforms : Db :=
  exec (Operation.run config) .empty
    [.intake { now := 0 } { context with platformId := "web" } ⟨"It does not load", none⟩ []
        ⟨webIssue, "reporter-1", "A"⟩,
      .intake { now := 0 } { context with platformId := "erp" } ⟨"It is slow", none⟩ []
        ⟨erpIssue, "reporter-2", "B"⟩]

def webDeveloper : AuthenticatedStaff :=
  ⟨"developer", "local:developer@cimp", "Developer", "developer@cimp", [⟨.developer, some "web"⟩]⟩

def mergeInto : Endpoint := .merge webIssue 1 ⟨"link", "comment-1", "comment-2"⟩

theorem erpIssue_foreign : mergeInto.Foreign twoPlatforms webDeveloper erpIssue := by
  obtain ⟨row, hrow, hplatform⟩ : ∃ row, twoPlatforms.issues.findOne erpIssue = some row ∧ row.platform = "erp" :=
    Option.map_eq_some_iff.mp (by decide : (twoPlatforms.issues.findOne erpIssue).map Issue.platform = some "erp")
  exact ⟨row, hrow, hplatform ▸ by simp [AuthenticatedStaff.Outside, webDeveloper]⟩

theorem noIssue_nowhere : Endpoint.Nowhere twoPlatforms noIssue :=
  ⟨by decide, by decide, by decide, by decide⟩

end Sample

namespace Endpoint

theorem ids_indistinguishable_iff_hides_merge :
    Outcome.rename Sample.erpIssue Sample.noIssue (Sample.mergeInto.handle Sample.config { now := 1 }
        (fun _ => { now := 1 }) Sample.twoPlatforms Sample.webDeveloper Sample.erpIssue) =
      Outcome.rename Sample.erpIssue Sample.noIssue (Sample.mergeInto.handle Sample.config { now := 1 }
        (fun _ => { now := 1 }) Sample.twoPlatforms Sample.webDeveloper Sample.noIssue) ↔
      Sample.mergeInto.Hides { now := 1 } Sample.twoPlatforms Sample.webDeveloper :=
  ids_indistinguishable_iff_hides Sample.config { now := 1 } (fun _ => { now := 1 }) Sample.twoPlatforms
    Sample.webDeveloper Sample.erpIssue Sample.noIssue Sample.mergeInto Sample.erpIssue_foreign
    Sample.noIssue_nowhere

theorem merge_tells_foreign_from_missing :
    ¬ ∀ (cfg : Config) (env : Env) (envs : ℕ → Env) (db : Db) (staff : AuthenticatedStaff) (ref ref' : Uuid)
      (request : Endpoint), request.Foreign db staff ref → Nowhere db ref' →
        Outcome.rename ref ref' (request.handle cfg env envs db staff ref) =
          Outcome.rename ref ref' (request.handle cfg env envs db staff ref') := by
  intro h
  have hanswer := congrArg (fun o : Outcome => match o.1 with
      | .error e => e.status
      | .ok _ => 201)
    (h Sample.config { now := 1 } (fun _ => { now := 1 }) Sample.twoPlatforms Sample.webDeveloper
      Sample.erpIssue Sample.noIssue Sample.mergeInto Sample.erpIssue_foreign Sample.noIssue_nowhere)
  revert hanswer
  decide

end Endpoint

end Cimp
