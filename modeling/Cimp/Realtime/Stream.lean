import Cimp.Auth.Grants
import Cimp.Auth.Sessions
import Cimp.Auth.Tickets
import Cimp.Events
import Cimp.Lib.Execution

namespace Cimp

open Execution

structure RealtimeEvent where
  type : String
  issueId : Uuid
  platformId : Uuid
  targetStaffIds : List Uuid
deriving DecidableEq, Repr

/-- What `RealtimeService` pushes for a domain event, if it listens to it. -/
def RealtimeService.realtimeEvent : IssueEvent → Option RealtimeEvent
  | .created issueId platformId => some ⟨"issue.created", issueId, platformId, []⟩
  | .statusChanged issueId platformId _ _ _ => some ⟨"issue.status_changed", issueId, platformId, []⟩
  | .priorityChanged issueId platformId _ _ _ => some ⟨"issue.priority_changed", issueId, platformId, []⟩
  | .assigned issueId platformId assigneeId _ => some ⟨"issue.assigned", issueId, platformId, assigneeId.toList⟩
  | .commentAdded issueId platformId _ _ _ mentionStaffIds => some ⟨"comment.added", issueId, platformId, mentionStaffIds⟩
  | .merged _ _ _ _ | .slaBreached _ _ | .csatReceived _ _ _ => none

/-- An open event stream; `refreshing` is the row that a refresh under way has read. -/
structure Stream where
  staffId : Uuid
  allowed : PlatformScope
  pinnedTokenVersion : Option ℕ
  revoked : Bool
  refreshing : Option StaffUser

namespace Stream

def targets (s : Stream) (e : RealtimeEvent) : Bool := s.staffId ∈ e.targetStaffIds

def inScope (s : Stream) (e : RealtimeEvent) : Bool := ScopeService.scopeAllows s.allowed e.platformId || s.targets e

def delivers (s : Stream) (e : RealtimeEvent) : Bool := !s.revoked && s.inScope e

end Stream

def freshScope (db : Db) (staffId : Uuid) : PlatformScope :=
  ScopeService.scopedPlatformIds ⟨staffId, "", "", "", loadRoles db staffId⟩

theorem scopedPlatformIds_eq {db : Db} {staff : AuthenticatedStaff} {staffId : Uuid}
    (h : staff.roles = loadRoles db staffId) : ScopeService.scopedPlatformIds staff = freshScope db staffId := by
  simp only [freshScope, ScopeService.scopedPlatformIds, h]

/-- What ends the sessions of an account: a bump of its token version, its disabling or its deletion. -/
def endsSessions : Option StaffUser → Option StaffUser → Bool
  | some u, some v => u.tokenVersion ≠ v.tokenVersion || (u.status = .active && v.status ≠ .active)
  | some _, none => true
  | none, _ => false

theorem version_lt_of_endsSessions {u v : StaffUser} (hages : Ages (some u) (some v))
    (h : endsSessions (some u) (some v) = true) : u.tokenVersion < v.tokenVersion := by
  simp only [endsSessions, Bool.or_eq_true, Bool.and_eq_true, decide_eq_true_eq] at h
  rcases h with hbump | ⟨hactive, hgone⟩
  · exact Nat.lt_of_le_of_ne hages.1 hbump
  · exact hages.2 hactive hgone

theorem lives_of_not_endsSessions {u : StaffUser} {row : Option StaffUser} (hactive : u.status = .active)
    (h : endsSessions (some u) row = false) : ∃ v ∈ row, v.status = .active ∧ v.tokenVersion = u.tokenVersion := by
  cases row with
  | none => cases h
  | some v =>
    simp only [endsSessions, Bool.or_eq_false_iff, decide_eq_false_iff_not, not_not, hactive, decide_true,
      Bool.true_and] at h
    exact ⟨v, rfl, h.2, h.1.symm⟩

/-- `version` is the account's token version at the connect. The last four fields are what has come since:
whether the sessions were ended, whether that was before the refresh under way began, whether a heartbeat
that began after it has succeeded, and whether the grants changed after the last heartbeat that did. -/
structure Connection where
  db : Db
  stream : Stream
  delivered : List RealtimeEvent
  version : ℕ
  ended : Bool
  begunAfter : Bool
  heard : Bool
  regranted : Bool

namespace Connection

inductive Action
  | administer (env : Env) (id : Uuid) (admin : AuthenticatedStaff) (r : AdminRequest)
  | event (e : IssueEvent)
  | readUser (fails : Bool)
  | readRoles (fails : Bool)

def connect (cfg : AuthConfig) (env : Env) (id : Uuid) (now : Time) (ticket : JwtPayload) (db : Db) :
    Option Connection :=
  match LocalAuthService.verifySseTicket cfg env id now ticket db with
  | (_, none) => none
  | (db, some staff) => (db.staffUsers.findOne staff.id).map fun row => {
      db := db
      stream := ⟨staff.id, ScopeService.scopedPlatformIds staff, none, false, none⟩
      delivered := []
      version := row.tokenVersion
      ended := false
      begunAfter := false
      heard := false
      regranted := false }

def administer (cfg : AuthConfig) (s : Connection) (env : Env) (id : Uuid) (admin : AuthenticatedStaff)
    (r : AdminRequest) : Connection :=
  let db := AdminService.run cfg env id admin r s.db
  { s with
    db
    ended := s.ended || endsSessions (s.db.staffUsers.findOne s.stream.staffId)
      (db.staffUsers.findOne s.stream.staffId)
    regranted := s.regranted || loadRoles s.db s.stream.staffId ≠ loadRoles db s.stream.staffId }

/-- `refreshAuthenticated` up to the row; `concatMap` keeps the ticks apart. -/
def readUser (s : Connection) : Connection :=
  match s.db.staffUsers.findOne s.stream.staffId with
  | none => { s with stream.revoked := true, heard := s.heard || s.ended }
  | some user =>
    if user.status = .active then { s with stream.refreshing := some user, begunAfter := s.ended }
    else { s with stream.revoked := true, heard := s.heard || s.ended }

def readRoles (s : Connection) (user : StaffUser) : Connection :=
  let allowed := ScopeService.scopedPlatformIds (AuthService.toAuthenticated s.db user.toEntity)
  let heard := s.heard || s.begunAfter
  match s.stream.pinnedTokenVersion with
  | none => { s with
      stream := { s.stream with allowed, pinnedTokenVersion := user.tokenVersion, refreshing := none }
      heard
      regranted := false }
  | some pinned =>
    if user.tokenVersion ≠ pinned then { s with stream := { s.stream with revoked := true, refreshing := none }, heard }
    else { s with stream := { s.stream with allowed, refreshing := none }, heard, regranted := false }

/-- The key of a new row is never that of an account which once was. -/
def step (cfg : AuthConfig) (s : Connection) : Action → Connection
  | .administer env id admin r => if id = s.stream.staffId then s else s.administer cfg env id admin r
  | .event e =>
    match RealtimeService.realtimeEvent e with
    | none => s
    | some e => if s.stream.delivers e then { s with delivered := s.delivered ++ [e] } else s
  | .readUser fails => if s.stream.revoked || s.stream.refreshing.isSome || fails then s else s.readUser
  | .readRoles fails =>
    match s.stream.refreshing with
    | none => s
    | some user => if fails then { s with stream.refreshing := none } else s.readRoles user

/-- Whatever event came, a stream that delivers it has not heard of its end, and one that has read its
grants since they last changed goes by them. -/
def Honours (s : Connection) : Prop := ∀ e, s.stream.delivers e = true → s.heard = false ∧
  (s.regranted = false → ScopeService.scopeAllows (freshScope s.db s.stream.staffId) e.platformId = true ∨
    s.stream.targets e = true)

/-- The heartbeat that pins a token version finds the one the stream was opened with. -/
def PinsOwnVersion (s : Connection) : Action → Prop
  | .readRoles fails => fails = false → s.stream.pinnedTokenVersion = none →
      ∀ user ∈ s.stream.refreshing, user.tokenVersion = s.version
  | _ => True

structure Inv (s : Connection) : Prop where
  live : s.ended = false → ∃ row ∈ s.db.staffUsers.findOne s.stream.staffId,
    row.status = .active ∧ row.tokenVersion = s.version
  gone : s.ended = true → ∀ row ∈ s.db.staffUsers.findOne s.stream.staffId, s.version < row.tokenVersion
  before : ∀ user ∈ s.stream.refreshing, s.begunAfter = false → user.tokenVersion = s.version
  after : ∀ user ∈ s.stream.refreshing, s.begunAfter = true → s.version < user.tokenVersion
  own : ∀ user ∈ s.stream.refreshing, user.id = s.stream.staffId
  pinned : s.heard = false → ∀ v ∈ s.stream.pinnedTokenVersion, v = s.version
  closed : s.stream.revoked = true → s.stream.refreshing = none
  scope : s.regranted = false → s.stream.allowed = freshScope s.db s.stream.staffId

variable {cfg : AuthConfig} {s : Connection} {env : Env} {id : Uuid} {admin : AuthenticatedStaff}

theorem honours_iff (h : Inv s) : Honours s ↔ (s.stream.revoked = false → s.heard = false) := by
  constructor
  · intro hhonours hopen
    -- an event that names the staff member is let through whatever the scope
    have hdelivers : s.stream.delivers ⟨"", "", "", [s.stream.staffId]⟩ = true := by
      simp [Stream.delivers, Stream.inScope, Stream.targets, hopen]
    exact (hhonours _ hdelivers).1
  · intro hopen e he
    simp only [Stream.delivers, Stream.inScope, Bool.and_eq_true, Bool.or_eq_true, Bool.not_eq_true'] at he
    refine ⟨hopen he.1, fun hregranted => ?_⟩
    rw [← h.scope hregranted]
    exact he.2

theorem administer_inv (h : Inv s) (hid : id ≠ s.stream.staffId) (r : AdminRequest) :
    Inv (s.administer cfg env id admin r) := by
  have hages := AdminService.run_ages cfg env admin r s.db (Ne.symm hid)
  constructor
  · intro hended
    simp only [administer, Bool.or_eq_false_iff] at hended
    obtain ⟨row, hrow, hactive, hversion⟩ := h.live hended.1
    rw [show s.db.staffUsers.findOne s.stream.staffId = some row from hrow] at hended
    obtain ⟨v, hv, hactive', hversion'⟩ := lives_of_not_endsSessions hactive hended.2
    exact ⟨v, hv, hactive', hversion'.trans hversion⟩
  · intro hended v hv
    simp only [administer, Bool.or_eq_true] at hended hv
    rw [Option.mem_def] at hv
    rw [hv] at hages hended
    cases hrow : s.db.staffUsers.findOne s.stream.staffId with
    | none =>
      rw [hrow] at hages
      cases hages
    | some u =>
      rw [hrow] at hages hended
      cases hbefore : s.ended with
      | true => exact Nat.lt_of_lt_of_le (h.gone hbefore u hrow) hages.1
      | false =>
        obtain ⟨row, hlive, _, hversion⟩ := h.live hbefore
        rw [hrow] at hlive
        cases hlive
        rw [hbefore, Bool.false_eq_true, false_or] at hended
        have hlt := version_lt_of_endsSessions hages hended
        rwa [hversion] at hlt
  · exact h.before
  · exact h.after
  · exact h.own
  · exact h.pinned
  · exact h.closed
  · intro hregranted
    simp only [administer, Bool.or_eq_false_iff, decide_eq_false_iff_not, not_not] at hregranted
    simp only [administer, freshScope]
    rw [← hregranted.2]
    exact h.scope hregranted.1

theorem revoke_inv (h : Inv s) (hidle : s.stream.refreshing = none) :
    Inv { s with stream.revoked := true, heard := s.heard || s.ended } := by
  refine ⟨h.live, h.gone, h.before, h.after, h.own, fun hheard => ?_, fun _ => hidle, h.scope⟩
  exact h.pinned (Bool.or_eq_false_iff.mp hheard).1

theorem readUser_inv (h : Inv s) (hopen : s.stream.revoked = false) (hidle : s.stream.refreshing = none) :
    Inv s.readUser := by
  unfold readUser
  split
  · exact revoke_inv h hidle
  · rename_i user huser
    split
    · constructor
      · exact h.live
      · exact h.gone
      · intro v hv hbegun
        cases hv
        obtain ⟨row, hrow, _, hversion⟩ := h.live hbegun
        rw [huser] at hrow
        cases hrow
        exact hversion
      · intro v hv hbegun
        cases hv
        exact h.gone hbegun _ huser
      · intro v hv
        cases hv
        exact Table.findOne_key huser
      · exact h.pinned
      · intro hclosed
        rw [show s.stream.revoked = true from hclosed] at hopen
        cases hopen
      · exact h.scope
    · exact revoke_inv h hidle

theorem Inv.rest {stream : Stream} {heard regranted : Bool} (h : Inv s) (hid : stream.staffId = s.stream.staffId)
    (hidle : stream.refreshing = none) (hpinned : heard = false → ∀ v ∈ stream.pinnedTokenVersion, v = s.version)
    (hscope : regranted = false → stream.allowed = freshScope s.db s.stream.staffId) :
    Inv { s with stream, heard, regranted } := by
  have hnone : ∀ user, user ∉ stream.refreshing := by
    intro user hread
    rw [hidle] at hread
    cases hread
  constructor
  · rw [hid]
    exact h.live
  · rw [hid]
    exact h.gone
  · exact fun user hread => absurd hread (hnone user)
  · exact fun user hread => absurd hread (hnone user)
  · exact fun user hread => absurd hread (hnone user)
  · exact hpinned
  · exact fun _ => hidle
  · rw [hid]
    exact hscope

theorem readRoles_inv {user : StaffUser} (h : Inv s) (hread : s.stream.refreshing = some user) :
    Inv (s.readRoles user) := by
  have hscope : ScopeService.scopedPlatformIds (AuthService.toAuthenticated s.db user.toEntity) =
      freshScope s.db s.stream.staffId := by
    apply scopedPlatformIds_eq
    rw [← h.own user hread]
    rfl
  have hpinned : (s.heard || s.begunAfter) = false → ∀ v ∈ s.stream.pinnedTokenVersion, v = s.version :=
    fun hheard => h.pinned (Bool.or_eq_false_iff.mp hheard).1
  unfold readRoles
  split
  · refine h.rest rfl rfl (fun hheard v hv => ?_) fun _ => hscope
    cases hv
    exact h.before user hread (Bool.or_eq_false_iff.mp hheard).2
  · split
    · exact h.rest rfl rfl hpinned h.scope
    · exact h.rest rfl rfl hpinned fun _ => hscope

theorem step_inv (s : Connection) (a : Action) (h : Inv s) : Inv (step cfg s a) := by
  cases a with
  | administer env id admin r =>
    simp only [step]
    split
    · exact h
    · exact administer_inv h ‹_› r
  | event e =>
    simp only [step]
    split
    · exact h
    · split
      · exact ⟨h.live, h.gone, h.before, h.after, h.own, h.pinned, h.closed, h.scope⟩
      · exact h
  | readUser fails =>
    simp only [step]
    split
    · exact h
    · rename_i hready
      simp only [Bool.or_eq_true, not_or, Bool.not_eq_true, Option.isSome_eq_false_iff, Option.isNone_iff_eq_none] at hready
      exact readUser_inv h hready.1.1 hready.1.2
  | readRoles fails =>
    simp only [step]
    split
    · exact h
    · rename_i user hread
      split
      · exact h.rest rfl rfl h.pinned h.scope
      · exact readRoles_inv h hread

theorem readUser_open (h : s.stream.revoked = false → s.heard = false) :
    s.readUser.stream.revoked = false → s.readUser.heard = false := by
  unfold readUser
  split
  · intro hopen
    cases hopen
  · split
    · exact h
    · intro hopen
      cases hopen

theorem readRoles_open_iff {user : StaffUser} (h : Inv s) (hread : s.stream.refreshing = some user)
    (hopen : s.stream.revoked = false → s.heard = false) :
    ((s.readRoles user).stream.revoked = false → (s.readRoles user).heard = false) ↔
      (s.stream.pinnedTokenVersion = none → user.tokenVersion = s.version) := by
  have hrevoked : s.stream.revoked = false := by
    cases hrevoked : s.stream.revoked with
    | false => rfl
    | true =>
      rw [h.closed hrevoked] at hread
      cases hread
  have hheard := hopen hrevoked
  have hbegun : s.begunAfter = false ↔ user.tokenVersion = s.version := by
    cases hbegun : s.begunAfter with
    | false => exact iff_of_true rfl (h.before user hread hbegun)
    | true =>
      have hlt := h.after user hread hbegun
      exact iff_of_false (by simp) (by omega)
  unfold readRoles
  split
  · rename_i hpinned
    simp [hrevoked, hheard, hpinned, hbegun]
  · rename_i pinned hpinned
    have hown := h.pinned hheard pinned hpinned
    split
    · simp [hpinned]
    · rename_i hsame
      rw [not_not] at hsame
      simp [hrevoked, hheard, hpinned, hbegun, hsame, hown]

theorem step_honours_iff (s : Connection) (a : Action) (h : Inv s) (hhonours : Honours s) :
    Honours (step cfg s a) ↔ PinsOwnVersion s a := by
  rw [honours_iff (step_inv s a h)]
  rw [honours_iff h] at hhonours
  cases a with
  | administer env id admin r =>
    refine iff_of_true ?_ trivial
    simp only [step]
    split
    · exact hhonours
    · exact hhonours
  | event e =>
    refine iff_of_true ?_ trivial
    simp only [step]
    split
    · exact hhonours
    · split <;> exact hhonours
  | readUser fails =>
    refine iff_of_true ?_ trivial
    simp only [step]
    split
    · exact hhonours
    · exact readUser_open hhonours
  | readRoles fails =>
    simp only [step, PinsOwnVersion]
    split
    · rename_i hidle
      apply iff_of_true hhonours
      intro _ _ user hread
      rw [hidle] at hread
      cases hread
    · rename_i user hread
      cases fails with
      | true => simpa using hhonours
      | false =>
        rw [if_neg Bool.false_ne_true, readRoles_open_iff h hread hhonours, hread]
        simp

theorem connect_inv {now : Time} {ticket : JwtPayload} {db : Db} (h : connect cfg env id now ticket db = some s) :
    Inv s ∧ Honours s := by
  unfold connect at h
  split at h
  · cases h
  · rename_i saved staff hverified
    obtain ⟨⟨row, hrow, hactive⟩, hroles⟩ := LocalAuthService.verifySseTicket_admitted hverified
    rw [show saved.staffUsers.findOne staff.id = some row from hrow] at h
    cases h
    have hinv : Inv (Connection.mk saved ⟨staff.id, ScopeService.scopedPlatformIds staff, none, false, none⟩ []
        row.tokenVersion false false false false) := by
      constructor
      · exact fun _ => ⟨row, hrow, hactive, rfl⟩
      · intro hended
        cases hended
      · intro user hread
        cases hread
      · intro user hread
        cases hread
      · intro user hread
        cases hread
      · intro _ pinned hpinned
        cases hpinned
      · exact fun _ => rfl
      · exact fun _ => scopedPlatformIds_eq hroles
    exact ⟨hinv, (honours_iff hinv).mpr fun _ => rfl⟩

theorem connect_sign {now later : Time} {db : Db} {sub : String} {ticket : JwtPayload}
    (h : LocalAuthService.signSseTicket cfg now db sub = some ticket) (hsub : sub ≠ "")
    (hlater : later / 1000 < now / 1000 + 30) (hread : env.read = false) :
    ∃ s, connect cfg env id later ticket db = some s ∧ s.db = db := by
  obtain ⟨user, huser, hverified⟩ := LocalAuthService.verifySseTicket_sign id h hsub hlater hread
  have hrow : db.staffUsers.findOne (AuthService.toAuthenticated db user.toEntity).id = some user :=
    AuthService.bySubject_found huser
  unfold connect
  rw [hverified]
  simp only [hrow, Option.map_some]
  exact ⟨_, rfl, rfl⟩

/-- The stream honours every end of its sessions exactly when the heartbeat that pins the token version
finds the one the stream was opened with. -/
theorem always_honours_iff_pinsOwnVersion {now : Time} {ticket : JwtPayload} {db : Db} (as : List Action)
    (h : connect cfg env id now ticket db = some s) :
    Always (step cfg) Honours s as ↔ EveryStep (step cfg) PinsOwnVersion s as :=
  always_iff_everyStep step_inv step_honours_iff (connect_inv h).1 (connect_inv h).2 as

end Connection

namespace Sample

def ticket : JwtPayload := ⟨some "local:root@cimp", none, none, some 1, some "sse", 30⟩

def opened : Connection := ⟨staffed, ⟨"root", .all, none, false, none⟩, [], 1, false, false, false, false⟩

def resetPassword : Connection.Action :=
  .administer { now := 0 } "unused" rootStaff (.staff (.setStaffPassword "root" "hash of new"))

end Sample

namespace Connection

def heartbeat : List Action := [.readUser false, .readRoles false]

theorem always_honours_iff_pinsOwnVersion_resetLater :
    Always (step Sample.authConfig) Honours Sample.opened (heartbeat ++ Sample.resetPassword :: heartbeat) ↔
      EveryStep (step Sample.authConfig) PinsOwnVersion Sample.opened (heartbeat ++ Sample.resetPassword :: heartbeat) :=
  have hconnect : connect Sample.authConfig { now := 0 } "unused" 0 Sample.ticket Sample.staffed = some Sample.opened := rfl
  always_honours_iff_pinsOwnVersion _ hconnect

theorem stream_outlives_reset :
    ¬ ∀ (cfg : AuthConfig) (env : Env) (id : Uuid) (now : Time) (ticket : JwtPayload) (db : Db) (s : Connection)
      (as : List Action), connect cfg env id now ticket db = some s → Always (step cfg) Honours s as := by
  intro h
  have hhonours := (h Sample.authConfig { now := 0 } "unused" 0 Sample.ticket Sample.staffed Sample.opened
    (Sample.resetPassword :: heartbeat) rfl).final
  have hheard := (hhonours ⟨"issue.created", "issue", "cbs", []⟩ (by decide)).1
  revert hheard
  decide

end Connection

end Cimp
