import Cimp.Authz.Oracle

namespace Cimp

open Execution

/-- What the handler of a request answers and leaves behind. -/
def Request.respond (cfg : Config) (env : Env) (db : Db) (r : Request) : Except HttpException Unit × Db :=
  if env.read then (.error .internalServerError, db)
  else match r.load cfg env.now db with
    | .error e => (.error e, db)
    | .ok none => (.ok (), db)
    | .ok (some w) =>
      match w.body env db with
      | none => (.error .internalServerError, db)
      | some saved => (.ok (), saved)

namespace IssuesService

def BulkChange.request (staff : AuthenticatedStaff) (id : Uuid) (version : ℕ) : BulkChange → Request
  | .status target => .changeStatus staff id ⟨target, version⟩
  | .priority target => .changePriority staff id ⟨target, version⟩
  | .assignee target => .changeAssignment staff id ⟨target, version⟩

def currentVersion (db : Db) (id : Uuid) : ℕ := (db.issues.findOne id).elim 0 Issue.version

/-- The guarded single-issue route, sent the version that the issue has now. -/
def singleRoute (cfg : Config) (env : Env) (db : Db) (staff : AuthenticatedStaff) (change : BulkChange) (id : Uuid) :
    Except HttpException Unit × Db :=
  match PlatformAccessGuard.canActivate db staff staffWriteRoles id with
  | .error e => (.error e, db)
  | .ok _ => (change.request staff id (currentVersion db id)).respond cfg env db

structure SingleRun where
  db : Db
  failed : List Uuid

def singleStep (cfg : Config) (env : ℕ → Env) (staff : AuthenticatedStaff) (change : BulkChange)
    (run : SingleRun) (item : Uuid × ℕ) : SingleRun :=
  match singleRoute cfg (env item.2) run.db staff change item.1 with
  | (.error _, db) => ⟨db, run.failed ++ [item.1]⟩
  | (.ok _, db) => ⟨db, run.failed⟩

variable {cfg : Config} {env : Env} {db : Db} {staff : AuthenticatedStaff} {change : BulkChange} {id : Uuid}

theorem respond_error (r : Request) {e : HttpException} (h : (r.respond cfg env db).1 = .error e) :
    (r.respond cfg env db).2 = db := by
  unfold Request.respond at h ⊢
  split
  · rfl
  rename_i hread
  rw [if_neg hread] at h
  split
  · rfl
  · rfl
  rename_i w hload
  rw [hload] at h
  split
  · rfl
  rename_i saved hbody
  simp only [hbody] at h
  cases h

theorem singleRoute_error {e : HttpException} (h : (singleRoute cfg env db staff change id).1 = .error e) :
    (singleRoute cfg env db staff change id).2 = db := by
  unfold singleRoute at h ⊢
  split
  · rfl
  · rename_i hguard
    rw [hguard] at h
    exact respond_error _ h

theorem applyBulkChange_body {issue : IssueEntity} {w : Write} (henv : env.Healthy)
    (h : applyBulkChange cfg env.now db staff issue change = .ok w) : ∃ saved, w.body env db = some saved := by
  have hquiet : env.statement = fun _ => false := funext henv.2
  cases change with
  | status target =>
    obtain ⟨_, _, rfl⟩ := applyStatus_ok h
    exact ⟨_, by rw [Write.body, hquiet]; rfl⟩
  | priority target =>
    obtain ⟨_, _, rfl⟩ := applyPriority_ok h
    exact ⟨_, by rw [Write.body, hquiet]; rfl⟩
  | assignee target =>
    obtain ⟨_, rfl⟩ := applyAssignment_ok h
    exact ⟨_, by rw [Write.body, hquiet]; rfl⟩

theorem load_request (cfg : Config) (env : Env) (staff : AuthenticatedStaff) (change : BulkChange) {row : Issue}
    (hrow : db.issues.findOne id = some row) :
    (change.request staff id (currentVersion db id)).load cfg env.now db =
      some <$> applyBulkChange cfg env.now db staff (row.toEntity { assignee := true }) change := by
  have hload : loadForWrite db id = .ok (row.toEntity { assignee := true }) := by simp [loadForWrite, hrow]
  have hversion : currentVersion db id = (row.toEntity { assignee := true }).version := by
    simp [currentVersion, hrow, Issue.toEntity]
  rw [hversion]
  cases change <;> simp [BulkChange.request, Request.load, hload, applyBulkChange, bind, Except.bind]

theorem singleRoute_of_bulkWrite (cfg : Config) (db : Db) (staff : AuthenticatedStaff) (change : BulkChange)
    (henv : env.Healthy) (hid : uuidPattern id = true) :
    match bulkWrite cfg env db staff change id with
    | .error _ => ∃ e, singleRoute cfg env db staff change id = (.error e, db)
    | .ok w => ∃ saved, w.body env db = some saved ∧ singleRoute cfg env db staff change id = (.ok (), saved) := by
  cases hrow : db.issues.findOne id with
  | none =>
    have hguard : PlatformAccessGuard.canActivate db staff staffWriteRoles id = .error (.notFound "Issue not found") :=
      PlatformAccessGuard.canActivate_missing hrow
    simp [bulkWrite, henv.1, loadForWrite, hrow, singleRoute, hguard]
  | some row =>
    have hload : loadForWrite db id = .ok (row.toEntity { assignee := true }) := by simp [loadForWrite, hrow]
    have hplatform : (row.toEntity { assignee := true }).platform = row.platform := rfl
    by_cases hgrant : ScopeService.canAccessPlatform staff row.platform staffWriteRoles = true
    · have hguard : PlatformAccessGuard.canActivate db staff staffWriteRoles id = .ok () :=
        PlatformAccessGuard.canActivate_of_admits ⟨hid, row, hrow, hgrant⟩
      have hrequest := load_request cfg env staff change hrow
      cases happly : applyBulkChange cfg env.now db staff (row.toEntity { assignee := true }) change with
      | error e =>
        rw [happly] at hrequest
        simp [bulkWrite, henv.1, hload, hplatform, hgrant, happly, singleRoute, hguard, Request.respond, hrequest]
      | ok w =>
        rw [happly] at hrequest
        obtain ⟨saved, hsaved⟩ := applyBulkChange_body henv happly
        simp [bulkWrite, henv.1, hload, hplatform, hgrant, happly, singleRoute, hguard, Request.respond, hrequest,
          hsaved]
    · have hrefused : ¬ PlatformAccessGuard.Admits db staff staffWriteRoles id := by
        intro h
        obtain ⟨row', hrow', hgrant'⟩ := h.granted
        rw [hrow] at hrow'
        cases hrow'
        exact hgrant hgrant'
      obtain ⟨e, he⟩ := PlatformAccessGuard.canActivate_of_not_admits hrefused
      simp [bulkWrite, henv.1, hload, hplatform, hgrant, singleRoute, he]

structure Matches (run : BulkRun) (single : SingleRun) : Prop where
  db : run.db = single.db
  failed : run.skipped.map Prod.fst = single.failed

theorem Matches.step {envs : ℕ → Env} {run : BulkRun} {single : SingleRun} {item : Uuid × ℕ}
    (h : Matches run single) (henv : (envs item.2).Healthy) (hid : uuidPattern item.1 = true) :
    Matches (bulkStep cfg envs staff change run item) (singleStep cfg envs staff change single item) := by
  have hroute := singleRoute_of_bulkWrite cfg run.db staff change henv hid
  unfold bulkStep singleStep
  rw [← h.db]
  cases hwrite : bulkWrite cfg (envs item.2) run.db staff change item.1 with
  | error reason =>
    rw [hwrite] at hroute
    obtain ⟨e, he⟩ := hroute
    rw [he]
    exact ⟨rfl, by simp [h.failed]⟩
  | ok w =>
    rw [hwrite] at hroute
    obtain ⟨saved, hsaved, he⟩ := hroute
    rw [he]
    dsimp only
    rw [hsaved]
    exact ⟨rfl, h.failed⟩

theorem bulkStep_count (cfg : Config) (envs : ℕ → Env) (staff : AuthenticatedStaff) (change : BulkChange) (run : BulkRun)
    (item : Uuid × ℕ) :
    (bulkStep cfg envs staff change run item).updated + (bulkStep cfg envs staff change run item).skipped.length =
      run.updated + run.skipped.length + 1 := by
  unfold bulkStep
  split
  · simp only [List.length_append, List.length_singleton]
    omega
  · split
    · simp only [List.length_append, List.length_singleton]
      omega
    · dsimp only
      omega

theorem bulkStep_counts (cfg : Config) (envs : ℕ → Env) (staff : AuthenticatedStaff) (change : BulkChange) (run : BulkRun)
    (items : List (Uuid × ℕ)) :
    (exec (bulkStep cfg envs staff change) run items).updated +
        (exec (bulkStep cfg envs staff change) run items).skipped.length =
      run.updated + run.skipped.length + items.length := by
  induction items generalizing run with
  | nil => rfl
  | cons item items ih =>
    rw [exec_cons, ih, bulkStep_count, List.length_cons]
    omega

def HoldsWriteRole (staff : AuthenticatedStaff) : Prop :=
  ∃ g ∈ staff.roles, g.role ∈ staffWriteRoles ∧ g.platformId ≠ some ""

theorem scopedPlatformIds_of_holdsWriteRole (h : HoldsWriteRole staff) :
    ScopeService.scopedPlatformIds staff ≠ .ids [] := by
  obtain ⟨g, hg, _, hnonempty⟩ := h
  have hallows : ∃ p, ScopeService.scopeAllows (ScopeService.scopedPlatformIds staff) p = true := by
    cases hplatform : g.platformId with
    | none => exact ⟨"", (scopeAllows_scopedPlatformIds staff "").mpr ⟨g, hg, .inl hplatform⟩⟩
    | some p =>
      have hne : p ≠ "" := fun he => hnonempty (by rw [hplatform, he])
      exact ⟨p, (scopeAllows_scopedPlatformIds staff p).mpr ⟨g, hg, .inr ⟨hplatform, hne⟩⟩⟩
  obtain ⟨p, hp⟩ := hallows
  intro hempty
  rw [hempty] at hp
  simp [ScopeService.scopeAllows] at hp

theorem bulkUpdate_eq_sequence (cfg : Config) (envs : ℕ → Env) (db : Db) (staff : AuthenticatedStaff)
    (dto : BulkUpdateDto) (change : BulkChange) (hwrite : HoldsWriteRole staff)
    (hids : ∀ id ∈ dto.ids, uuidPattern id = true) (hcheck : bulkChange cfg dto = .ok change)
    (henv : ∀ i, (envs i).Healthy) :
    ∃ run, bulkUpdate cfg envs db staff dto = .ok run ∧
      run.db = (exec (singleStep cfg envs staff change) ⟨db, []⟩ dto.ids.zipIdx).db ∧
      run.updated + run.skipped.length = dto.ids.length ∧
      run.skipped.map Prod.fst = (exec (singleStep cfg envs staff change) ⟨db, []⟩ dto.ids.zipIdx).failed ∧
      ∀ i s id e, (singleRoute cfg (envs i) s staff change id).1 = .error e →
        (singleRoute cfg (envs i) s staff change id).2 = s := by
  have hrun : bulkUpdate cfg envs db staff dto =
      .ok (exec (bulkStep cfg envs staff change) ⟨db, 0, [], []⟩ dto.ids.zipIdx) := by
    simp [bulkUpdate, scopedPlatformIds_of_holdsWriteRole hwrite, hcheck, bind, Except.bind, pure, Except.pure]
  have hmatches : Matches (exec (bulkStep cfg envs staff change) ⟨db, 0, [], []⟩ dto.ids.zipIdx)
      (exec (singleStep cfg envs staff change) ⟨db, []⟩ dto.ids.zipIdx) := by
    apply exec_simulates ?_ (Matches.mk rfl rfl)
    intro run single item hitem h
    exact h.step (henv item.2) (hids item.1 (List.fst_mem_of_mem_zipIdx hitem))
  have hcount := bulkStep_counts cfg envs staff change ⟨db, 0, [], []⟩ dto.ids.zipIdx
  rw [List.length_zipIdx] at hcount
  exact ⟨_, hrun, hmatches.db, by simpa using hcount, hmatches.failed, fun i s id e h => singleRoute_error h⟩

def startWork : BulkUpdateDto :=
  ⟨[Sample.webIssue, Sample.webIssue, Sample.erpIssue, Sample.noIssue], .status, some "IN_PROGRESS"⟩

theorem bulkUpdate_eq_sequence_startWork :
    ∃ run, bulkUpdate Sample.config (fun i => { now := i }) Sample.twoPlatforms Sample.webDeveloper startWork = .ok run ∧
      run.updated + run.skipped.length = 4 ∧
      run.skipped.map Prod.fst = [Sample.webIssue, Sample.erpIssue, Sample.noIssue] := by
  obtain ⟨run, hrun, _, hcount, hfailed, _⟩ := bulkUpdate_eq_sequence Sample.config (fun i => { now := i })
    Sample.twoPlatforms Sample.webDeveloper startWork (.status .inProgress)
    ⟨⟨.developer, some "web"⟩, by decide, by decide, by decide⟩ (by decide) (by decide) (fun i => ⟨rfl, fun k => rfl⟩)
  exact ⟨run, hrun, hcount, hfailed.trans (by decide)⟩

end IssuesService

end Cimp
