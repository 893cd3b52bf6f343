import Cimp.Auth.LastAdmin
import Mathlib.Data.Finset.Basic
import Mathlib.Data.Finset.Dedup

namespace Cimp

open Execution Transaction

namespace Role

def ofValue (s : String) : Option Role :=
  if s = "FOCAL_POINT" then some focalPoint
  else if s = "DEVELOPER" then some developer
  else if s = "ADMIN" then some admin
  else if s = "WATCHER" then some watcher
  else none

@[simp] theorem ofValue_value (r : Role) : ofValue r.value = some r := by
  cases r <;> rfl

end Role

namespace AccountStatus

def ofValue (s : String) : Option AccountStatus :=
  if s = "ACTIVE" then some active
  else if s = "DISABLED" then some disabled
  else none

@[simp] theorem ofValue_value (s : AccountStatus) : ofValue s.value = some s := by
  cases s <;> rfl

theorem eq_active_iff {s : AccountStatus} : s = active ↔ s ≠ disabled := by
  cases s <;> simp

end AccountStatus

structure AdminMetadata where
  staffUserId : Option Uuid := none
  platformId : Option Uuid := none
  grantId : Option Uuid := none
deriving DecidableEq, Repr

structure AdminAudit extends AuditEvent where
  metadata : AdminMetadata
deriving DecidableEq, Repr

def AdminWrite.audit : AdminWrite → AuditInput
  | .staff (.create _ audit) | .staff (.update _ audit) | .staff (.remove _ audit) => audit
  | .grant _ _ _ audit | .revoke _ audit | .removePlatform _ audit => audit

/-- What the audit row points at; `id` is the key of an inserted row. -/
def AdminWrite.metadata (id : Uuid) : AdminWrite → AdminMetadata
  | .staff (.create _ _) => { staffUserId := id }
  | .staff (.update u _) => { staffUserId := u.user.id }
  | .staff (.remove user _) => { staffUserId := user.id }
  | .grant staffUser _ platform _ => { staffUserId := staffUser, platformId := platform, grantId := id }
  -- a revocation does not say which row it took
  | .revoke g _ => { staffUserId := g.staffUser, platformId := g.platform }
  | .removePlatform p _ => { platformId := p.id }

structure Grant where
  staffUser : Uuid
  role : Role
  platform : Option Uuid
deriving DecidableEq, Repr

def UserPlatformRole.grant (g : UserPlatformRole) : Grant := ⟨g.staffUser, g.role, g.platform⟩

/-- Who may act where: the accounts that are switched off, and the grants as often as they are held. -/
@[ext] structure Access where
  disabled : Finset Uuid
  grants : Multiset Grant
deriving DecidableEq

inductive AccessChange
  | status (staffUser : Uuid) (status : AccountStatus)
  | forget (staffUser : Uuid)
  | grant (g : Grant)
  | revoke (g : Grant)
  | forgetPlatform (platform : Uuid)
deriving DecidableEq, Repr

namespace Access

def ofDb (db : Db) : Access where
  disabled := ((db.staffUsers.rows.filter fun u => u.status = .disabled).map StaffUser.id).toFinset
  grants := (db.roles.map UserPlatformRole.grant : List Grant)

def apply (a : Access) : AccessChange → Access
  | .status i .active => { a with disabled := a.disabled.erase i }
  | .status i .disabled => { a with disabled := insert i a.disabled }
  | .forget i => ⟨a.disabled.erase i, a.grants.filter fun g => g.staffUser ≠ i⟩
  | .grant g => { a with grants := a.grants + {g} }
  | .revoke g => { a with grants := a.grants.erase g }
  | .forgetPlatform p => { a with grants := a.grants.filter fun g => g.platform ≠ some p }

def Allows (a : Access) (i platformId : Uuid) (roles : List Role) : Prop :=
  i ∉ a.disabled ∧ ∃ g ∈ a.grants, g.staffUser = i ∧ g.role ∈ roles ∧ (g.platform = none ∨ g.platform = some platformId)

theorem mem_disabled {db : Db} {i : Uuid} :
    i ∈ (ofDb db).disabled ↔ ∃ u, db.staffUsers.findOne i = some u ∧ u.status = .disabled := by
  simp only [ofDb, List.mem_toFinset, List.mem_map, List.mem_filter, decide_eq_true_eq]
  constructor
  · rintro ⟨u, ⟨hu, hstatus⟩, rfl⟩
    exact ⟨u, Table.findOne_of_mem hu, hstatus⟩
  · rintro ⟨u, hu, hstatus⟩
    exact ⟨u, ⟨Table.mem_of_findOne hu, hstatus⟩, Table.findOne_key hu⟩

theorem mem_grants {db : Db} {g : Grant} : g ∈ (ofDb db).grants ↔ ∃ row ∈ db.roles, row.grant = g := by
  simp [ofDb]

theorem allows_iff {db : Db} {user : StaffUser} (huser : db.staffUsers.findOne user.id = some user)
    (platformId : Uuid) (roles : List Role) :
    (ofDb db).Allows user.id platformId roles ↔ user.status = .active ∧
      ScopeService.canAccessPlatform (AuthService.toAuthenticated db user.toEntity) platformId roles = true := by
  have hstatus : user.id ∉ (ofDb db).disabled ↔ user.status = .active := by
    rw [mem_disabled, AccountStatus.eq_active_iff]
    apply not_congr
    constructor
    · rintro ⟨u, hu, hdisabled⟩
      rw [huser] at hu
      cases hu
      exact hdisabled
    · exact fun hdisabled => ⟨user, huser, hdisabled⟩
  rw [Allows, hstatus]
  apply and_congr_right
  intro _
  simp only [mem_grants, ScopeService.canAccessPlatform, AuthService.toAuthenticated, loadRoles, List.any_eq_true,
    List.mem_map, List.mem_filter, decide_eq_true_eq, Bool.and_eq_true, Bool.or_eq_true]
  constructor
  · rintro ⟨_, ⟨row, hrow, rfl⟩, hheld, hrole, hplatform⟩
    exact ⟨_, ⟨row, ⟨hrow, hheld⟩, rfl⟩, hrole, hplatform⟩
  · rintro ⟨_, ⟨row, ⟨hrow, hheld⟩, rfl⟩, hrole, hplatform⟩
    exact ⟨_, ⟨row, hrow, rfl⟩, hheld, hrole, hplatform⟩

end Access

namespace AdminAudit

/-- What an audit row says about access. A new account starts active and without grants. -/
def change (e : AdminAudit) : Option AccessChange :=
  if e.action = "STAFF_UPDATED" then
    e.metadata.staffUserId.bind fun i => (e.newValue.bind AccountStatus.ofValue).map (.status i)
  else if e.action = "STAFF_DELETED" then e.metadata.staffUserId.map .forget
  else if e.action = "ROLE_ASSIGNED" then
    e.metadata.staffUserId.bind fun i =>
      (e.newValue.bind Role.ofValue).map fun role => .grant ⟨i, role, e.metadata.platformId⟩
  else if e.action = "ROLE_REVOKED" then
    e.metadata.staffUserId.bind fun i =>
      (e.oldValue.bind Role.ofValue).map fun role => .revoke ⟨i, role, e.metadata.platformId⟩
  else if e.action = "PLATFORM_DELETED" then e.metadata.platformId.map .forgetPlatform
  else none

def apply (a : Access) (e : AdminAudit) : Access := e.change.elim a a.apply

def replay (a : Access) (trail : List AdminAudit) : Access := trail.foldl apply a

theorem replay_append (a : Access) (trail later : List AdminAudit) :
    replay a (trail ++ later) = replay (replay a trail) later := List.foldl_append

end AdminAudit

namespace AdminWrite

def toAudit (now : Time) (id : Uuid) (w : AdminWrite) : AdminAudit := ⟨w.audit.toEvent now, w.metadata id⟩

/-- The change of access that the audit row of a write stands for. -/
def change : AdminWrite → Option AccessChange
  | .staff (.create _ _) => none
  | .staff (.update u audit) => audit.newValue.map fun _ => .status u.user.id u.user.status
  | .staff (.remove user _) => some (.forget user.id)
  | .grant staffUser role platform _ => some (.grant ⟨staffUser, role, platform⟩)
  | .revoke g _ => some (.revoke g.grant)
  | .removePlatform p _ => some (.forgetPlatform p.id)

end AdminWrite

namespace AdminService

variable {cfg : AuthConfig} {db : Db} {admin : AuthenticatedStaff} {w : AdminWrite} {now : Time} {id : Uuid}

theorem rekey_status (email : Option String) (user : StaffEntity) : (rekey cfg email user).status = user.status := by
  cases email <;> rfl

theorem updated_newStatus (dto : UpdateStaffDto) (user : StaffUser) :
    (updated cfg dto user).user.status = dto.status.getD user.status := by
  have hkept : (rekey cfg (newEmail cfg dto user) (rename dto.name user.toEntity)).status = user.status :=
    rekey_status _ _
  simp only [updated, newStatus]
  rcases dto.status with _ | status
  · exact hkept
  · by_cases hsame : status = user.status
    · simpa [Option.filter, hsame, restatus] using hkept
    · cases status <;> simp [Option.filter, hsame, restatus]

theorem updateStaff_write {i : Uuid} {dto : UpdateStaffDto} {v : StaffWrite}
    (h : updateStaff cfg db admin i dto = .ok v) :
    ∃ user, db.staffUsers.findOne i = some user ∧ v = .update (updated cfg dto user) {
      issueId := none
      actorType := .staff
      actorId := admin.id
      action := "STAFF_UPDATED"
      newValue := dto.status.map AccountStatus.value } := by
  unfold updateStaff at h
  split at h
  · cases h
  · rename_i user huser
    split at h
    · obtain ⟨_, _, h⟩ := bind_ok h
      obtain ⟨_, _, h⟩ := bind_ok h
      obtain ⟨_, _, h⟩ := bind_ok h
      cases h
      exact ⟨user, huser, rfl⟩
    · obtain ⟨_, _, h⟩ := bind_ok h
      cases h
      exact ⟨user, huser, rfl⟩

theorem revokeRole_write {roleId : Uuid} (h : revokeRole db admin roleId = .ok w) :
    ∃ grant, (db.roles.find? fun g => g.id = roleId) = some grant ∧ w = .revoke grant {
      issueId := none
      actorType := .staff
      actorId := admin.id
      action := "ROLE_REVOKED"
      oldValue := grant.role.value } := by
  unfold revokeRole at h
  split at h
  · cases h
  · rename_i grant hgrant
    split at h
    · obtain ⟨_, _, h⟩ := bind_ok h
      cases h
      exact ⟨grant, hgrant, rfl⟩
    · cases h
      exact ⟨grant, hgrant, rfl⟩

theorem updateStaff_change {i : Uuid} {dto : UpdateStaffDto} {v : StaffWrite}
    (h : updateStaff cfg db admin i dto = .ok v) :
    ((AdminWrite.staff v).toAudit now id).change = (AdminWrite.staff v).change := by
  obtain ⟨user, _, rfl⟩ := updateStaff_write h
  simp only [AdminWrite.toAudit, AdminWrite.audit, AdminWrite.metadata, AdminAudit.change, AuditInput.toEvent, if_pos,
    AdminWrite.change, updated_newStatus]
  cases dto.status <;> simp

theorem prepare_change {r : AdminRequest} (h : prepare cfg db admin r = .ok w) :
    (w.toAudit now id).change = w.change := by
  cases r with
  | staff r =>
    obtain ⟨v, hv, rfl⟩ := staff_ok h
    cases r with
    | createStaff dto passwordHash =>
      obtain ⟨_, _, hv⟩ := bind_ok hv
      cases hv
      rfl
    | updateStaff i dto => exact updateStaff_change hv
    | setStaffPassword i passwordHash =>
      simp only [load, setStaffPassword] at hv
      split at hv
      · cases hv
      · cases hv
        rfl
    | deleteStaff i =>
      simp only [load, deleteStaff] at hv
      split at hv
      · cases hv
      · obtain ⟨_, _, hv⟩ := bind_ok hv
        obtain ⟨_, _, hv⟩ := bind_ok hv
        cases hv
        rfl
  | assignRole dto =>
    simp only [prepare, assignRole] at h
    obtain ⟨_, _, h⟩ := bind_ok h
    obtain ⟨_, _, h⟩ := bind_ok h
    split at h
    · cases h
    · obtain ⟨_, _, h⟩ := bind_ok h
      obtain ⟨_, _, h⟩ := bind_ok h
      cases h
      simp [AdminWrite.toAudit, AdminWrite.audit, AdminWrite.metadata, AdminAudit.change, AuditInput.toEvent,
        AdminWrite.change]
  | revokeRole roleId =>
    obtain ⟨grant, _, rfl⟩ := revokeRole_write h
    simp [AdminWrite.toAudit, AdminWrite.audit, AdminWrite.metadata, AdminAudit.change, AuditInput.toEvent,
      AdminWrite.change, UserPlatformRole.grant]
  | deletePlatform i =>
    simp only [prepare, deletePlatform] at h
    split at h
    · cases h
    · obtain ⟨_, _, h⟩ := bind_ok h
      cases h
      rfl

end AdminService

/-- What a write counts on: an update that does not set the status carries the stored one, and the row that a
revocation loaded is there whenever a grant like it is. -/
def AdminWrite.Found (db : Db) : AdminWrite → Prop
  | .staff (.update u audit) => audit.newValue = none →
      (u.user.status = .disabled ↔ u.user.id ∈ (Access.ofDb db).disabled)
  | .revoke g _ => (db.roles.find? fun h => h.id = g.id).map UserPlatformRole.grant =
      (db.roles.map UserPlatformRole.grant).find? fun h => h = g.grant
  | _ => True

namespace Access

variable {db db' : Db} {i : Uuid}

theorem mem_disabled_iff_holders : i ∈ (ofDb db).disabled ↔ ∃ h ∈ Accounts.holders db i, h.live = false := by
  rw [mem_disabled]
  constructor
  · rintro ⟨u, hu, hstatus⟩
    refine ⟨Accounts.holder u, by simp [Accounts.holders, hu], ?_⟩
    simp [Accounts.holder, hstatus]
  · rintro ⟨h, hh, hlive⟩
    obtain ⟨u, hu, rfl⟩ := Accounts.holders_some hh
    refine ⟨u, hu, ?_⟩
    by_contra hactive
    rw [← Ne, ← AccountStatus.eq_active_iff] at hactive
    simp [Accounts.holder, hactive] at hlive

theorem mem_disabled_puts {h : Credentials.Holder String} {j : Uuid} (hputs : Accounts.Puts db db' j h) :
    i ∈ (ofDb db').disabled ↔ if i = j then h.live = false else i ∈ (ofDb db).disabled := by
  rw [mem_disabled_iff_holders, hputs.find]
  split
  · simp
  · exact mem_disabled_iff_holders.symm

theorem ofDb_audited (db : Db) (auditEvents : List AuditEvent) : ofDb { db with auditEvents } = ofDb db := rfl

theorem ofDb_insert {row : StaffUser} (hactive : row.status = .active) (h : row.insert db = some db') :
    ofDb db' = ofDb db := by
  ext i
  · rw [mem_disabled_puts (Accounts.puts_of_insert h)]
    split
    · rename_i hi
      have hfresh : db.staffUsers.findOne i = none := by
        unfold StaffUser.insert at h
        split at h
        · cases h
        · obtain ⟨t, ht, rfl⟩ := Option.map_eq_some_iff.mp h
          rw [hi]
          exact Table.insert_fresh ht
      rw [mem_disabled, hfresh]
      simp [Accounts.holder, hactive]
    · exact Iff.rfl
  · rw [ofDb, ofDb, keeps_roles_insert _ _ _ h]

theorem ofDb_save {e : StaffEntity} (h : e.save db = some db') :
    ofDb db' = (ofDb db).apply (.status e.id e.status) := by
  ext i
  · rw [mem_disabled_puts (Accounts.puts_of_save h)]
    cases hstatus : e.status with
    | active =>
      simp only [apply, Finset.mem_erase]
      split
      · rename_i hi
        simp [Accounts.holder, StaffEntity.toRow, hstatus, hi]
      · rename_i hi
        simp [hi]
    | disabled =>
      simp only [apply, Finset.mem_insert]
      split
      · rename_i hi
        simp [Accounts.holder, StaffEntity.toRow, hstatus, hi]
      · rename_i hi
        simp [hi]
  · have hroles : (ofDb db').grants = (ofDb db).grants := by
      simp only [ofDb, keeps_roles_save _ _ _ h]
    rw [hroles]
    cases e.status <;> rfl

theorem apply_status_iff (a : Access) (status : AccountStatus) :
    a.apply (.status i status) = a ↔ (status = .disabled ↔ i ∈ a.disabled) := by
  cases status with
  | active => simp [apply, Access.ext_iff]
  | disabled => simp [apply, Access.ext_iff]

theorem grants_filter {p : UserPlatformRole → Bool} {q : Grant → Prop} [DecidablePred q]
    (hpq : ∀ g, p g = true ↔ q g.grant) (hroles : db'.roles = db.roles.filter p) :
    (ofDb db').grants = (ofDb db).grants.filter q := by
  simp only [ofDb, hroles, Multiset.filter_coe, List.filter_map]
  congr 2
  apply List.filter_congr
  intro g _
  rw [Function.comp_apply, Bool.eq_iff_iff, hpq, decide_eq_true_iff]

theorem ofDb_remove (h : StaffUser.remove i db = some db') : ofDb db' = (ofDb db).apply (.forget i) := by
  ext j
  · rw [mem_disabled_iff_holders, Accounts.remove_find h, apply, Finset.mem_erase, mem_disabled_iff_holders]
    split
    · rename_i hj
      simp [hj]
    · rename_i hj
      simp [hj]
  · have hroles : db'.roles = db.roles.filter fun g => g.staffUser ≠ i := by
      cases h
      rfl
    rw [grants_filter (q := fun g => g.staffUser ≠ i) (fun g => by simp [UserPlatformRole.grant]) hroles]
    rfl

theorem ofDb_grant {g : UserPlatformRole} (h : g.insert db = some db') :
    ofDb db' = (ofDb db).apply (.grant g.grant) := by
  rw [grant_inserted h]
  simp only [ofDb, apply, List.map_append, List.map_singleton]
  rfl

theorem ofDb_removePlatform (h : Platform.remove i db = some db') :
    ofDb db' = (ofDb db).apply (.forgetPlatform i) := by
  obtain ⟨hstaff, hroles⟩ := platform_removed h
  ext j
  · simp only [ofDb, hstaff, apply]
  · rw [grants_filter (q := fun g => g.platform ≠ some i) (fun g => by simp [UserPlatformRole.grant]) hroles]
    rfl

theorem erase_inj {s : Multiset Grant} {a b : Grant} (ha : a ∈ s) : s.erase a = s.erase b ↔ a = b := by
  constructor
  · intro herase
    by_contra hne
    have hcount := congrArg (Multiset.count a) herase
    rw [Multiset.count_erase_self, Multiset.count_erase_of_ne hne] at hcount
    have hpos := Multiset.count_pos.mpr ha
    omega
  · intro hab
    rw [hab]

theorem erase_eq_self {s : Multiset Grant} {a : Grant} : s = s.erase a ↔ a ∉ s := by
  constructor
  · intro herase ha
    have hcard := Multiset.card_erase_lt_of_mem ha
    rw [← herase] at hcard
    omega
  · intro ha
    rw [Multiset.erase_of_notMem ha]

theorem find?_grant (gs : List Grant) (a : Grant) : (gs.find? fun h => h = a) = if a ∈ gs then some a else none := by
  split
  · rename_i ha
    cases hfind : gs.find? fun h => h = a with
    | none => simpa using List.find?_eq_none.mp hfind a ha
    | some b =>
      have hb := List.find?_some hfind
      rw [of_decide_eq_true hb]
  · rename_i ha
    rw [List.find?_eq_none]
    intro b hb hab
    rw [← of_decide_eq_true hab] at ha
    exact ha hb

/-- A revocation by key takes one grant away, where the trail knows only what kind of grant it was. -/
theorem ofDb_revoke {g : UserPlatformRole} (hkeys : (db.roles.map UserPlatformRole.id).Nodup)
    (h : UserPlatformRole.remove g.id db = some db') :
    ofDb db' = (ofDb db).apply (.revoke g.grant) ↔
      (db.roles.find? fun h => h.id = g.id).map UserPlatformRole.grant =
        (db.roles.map UserPlatformRole.grant).find? fun h => h = g.grant := by
  obtain ⟨hstaff, hroles⟩ := grant_removed h
  have hdisabled : (ofDb db').disabled = (ofDb db).disabled := by simp only [ofDb, hstaff]
  rw [Access.ext_iff, hdisabled, find?_grant]
  simp only [apply, true_and]
  cases hfind : db.roles.find? fun h => h.id = g.id with
  | none =>
    have hsame : (ofDb db').grants = (ofDb db).grants := by
      simp only [ofDb, hroles]
      rw [List.filter_eq_self.mpr]
      intro row hrow
      simpa using List.find?_eq_none.mp hfind row hrow
    rw [hsame, erase_eq_self, Option.map_none]
    simp [ofDb]
  | some row =>
    have hrow := List.mem_of_find?_eq_some hfind
    have hid : row.id = g.id := by simpa using List.find?_some hfind
    have hsplit : (ofDb db').grants = (ofDb db).grants.erase row.grant := by
      have hrest : db.roles.erase row = db.roles.filter fun h => h.id ≠ g.id := by
        rw [List.Nodup.erase_eq_filter hkeys.of_map]
        apply List.filter_congr
        intro other hother
        rw [Bool.eq_iff_iff, bne_iff_ne, decide_eq_true_iff, ← hid]
        exact not_congr ⟨congrArg UserPlatformRole.id, List.inj_on_of_nodup_map hkeys hother hrow⟩
      have hperm := (List.perm_cons_erase hrow).map UserPlatformRole.grant
      rw [hrest, List.map_cons] at hperm
      simp only [ofDb, hroles, Multiset.coe_eq_coe.mpr hperm]
      rw [← Multiset.cons_coe, Multiset.erase_cons_head]
    rw [hsplit, erase_inj (mem_grants.mpr ⟨row, hrow, rfl⟩), Option.map_some]
    split
    · rw [Option.some_inj]
    · rename_i hnone
      refine iff_of_false (fun hsame => hnone ?_) (by simp)
      rw [← hsame]
      exact List.mem_map_of_mem hrow

/-- The audit row of a write tells what the write did to access exactly when the write finds what it counts on. -/
theorem ofDb_commit {env : Env} {id : Uuid} {w : AdminWrite} (hkeys : (db.roles.map UserPlatformRole.id).Nodup)
    (h : w.commit env id db = some db') :
    ofDb db' = w.change.elim (ofDb db) (ofDb db).apply ↔ w.Found db := by
  cases w with
  | staff w =>
    cases w with
    | create user audit =>
      obtain ⟨m, hm, rfl⟩ := AuditService.of_audited h
      rw [ofDb_audited]
      exact iff_of_true (ofDb_insert rfl hm) trivial
    | update u audit =>
      obtain ⟨m, hm, rfl⟩ := AuditService.of_audited h
      rw [ofDb_audited, ofDb_save hm]
      cases hnew : audit.newValue with
      | none =>
        simp only [AdminWrite.change, AdminWrite.Found, hnew, Option.map_none, Option.elim_none, forall_const]
        exact apply_status_iff _ _
      | some value => simp [AdminWrite.change, AdminWrite.Found, hnew]
    | remove user audit =>
      obtain ⟨m, hm, rfl⟩ := AuditService.of_audited h
      rw [ofDb_audited]
      exact iff_of_true (ofDb_remove hm) trivial
  | grant staffUser role platform audit =>
    obtain ⟨m, hm, rfl⟩ := AuditService.of_audited h
    rw [ofDb_audited]
    exact iff_of_true (ofDb_grant hm) trivial
  | revoke g audit =>
    obtain ⟨m, hm, rfl⟩ := AuditService.of_audited h
    rw [ofDb_audited]
    exact ofDb_revoke hkeys hm
  | removePlatform p audit =>
    obtain ⟨m, hm, rfl⟩ := AuditService.of_audited h
    rw [ofDb_audited]
    exact iff_of_true (ofDb_removePlatform hm) trivial

end Access

inductive AccessWrite
  | admin (w : AdminWrite)
  | refresh (u : StaffUpdate)
  | provision (claims : TokenClaims)

namespace AccessWrite

def commit (env : Env) (id : Uuid) : AccessWrite → Statement Db
  | .admin w => w.commit env id
  | .refresh u => body env.statement [u.user.save]
  | .provision claims => body env.statement [((AuthService.newStaff claims).toRow id).insert]

/-- Only administration leaves audit rows. -/
def audits (now : Time) (id : Uuid) : AccessWrite → List AdminAudit
  | .admin w => [w.toAudit now id]
  | .refresh _ | .provision _ => []

def Found (db : Db) : AccessWrite → Prop
  | .admin w => w.Found db
  | .refresh u => u.user.status = .disabled ↔ u.user.id ∈ (Access.ofDb db).disabled
  | .provision _ => True

def Recorded : AccessWrite → Prop
  | .admin w => ∀ now id, (w.toAudit now id).change = w.change
  | .refresh _ | .provision _ => True

variable {env : Env} {id : Uuid} {db db' : Db} {w : AccessWrite}

theorem ofDb_commit (hkeys : (db.roles.map UserPlatformRole.id).Nodup) (hrecorded : w.Recorded)
    (h : w.commit env id db = some db') :
    Access.ofDb db' = AdminAudit.replay (Access.ofDb db) (w.audits env.now id) ↔ w.Found db := by
  cases w with
  | admin w =>
    have hchange : AdminAudit.replay (Access.ofDb db) [w.toAudit env.now id] =
        w.change.elim (Access.ofDb db) (Access.ofDb db).apply := by
      rw [← hrecorded env.now id]
      rfl
    rw [audits, hchange]
    exact Access.ofDb_commit hkeys h
  | refresh u =>
    rw [Access.ofDb_save (body_one h)]
    exact Access.apply_status_iff _ _
  | provision claims => exact iff_of_true (Access.ofDb_insert rfl (body_one h)) trivial

theorem keys_commit (hkeys : (db.roles.map UserPlatformRole.id).Nodup) (h : w.commit env id db = some db') :
    (db'.roles.map UserPlatformRole.id).Nodup := by
  cases w with
  | admin w => exact AdminWrite.nodup_commit h hkeys
  | refresh u =>
    rw [keeps_roles_save _ _ _ (body_one h)]
    exact hkeys
  | provision claims =>
    rw [keeps_roles_insert _ _ _ (body_one h)]
    exact hkeys

theorem keeps_auditEvents_insert (row : StaffUser) : Keeps Db.auditEvents row.insert := by
  intro s t h
  unfold StaffUser.insert at h
  split at h
  · cases h
  · obtain ⟨_, _, rfl⟩ := Option.map_eq_some_iff.mp h
    rfl

theorem keeps_auditEvents_save (e : StaffEntity) : Keeps Db.auditEvents e.save := by
  intro s t h
  unfold StaffEntity.save at h
  split at h
  · exact keeps_auditEvents_insert _ s t h
  · split at h
    · cases h
    · cases h
      rfl

theorem keeps_auditEvents_removePlatform (i : Uuid) : Keeps Db.auditEvents (Platform.remove i) := by
  intro s t h
  unfold Platform.remove at h
  dsimp only at h
  split at h
  · cases h
  · cases h
    rfl

theorem auditEvents_of_audited {q : Statement Db} {audit : AuditInput} (hq : Keeps Db.auditEvents q)
    (h : body env.statement [q, AuditService.record env.now audit] db = some db') :
    db'.auditEvents = db.auditEvents ++ [audit.toEvent env.now] := by
  obtain ⟨m, hm, rfl⟩ := AuditService.of_audited h
  rw [← hq _ _ hm]

theorem auditEvents_commit (h : w.commit env id db = some db') :
    db'.auditEvents = db.auditEvents ++ (w.audits env.now id).map AdminAudit.toAuditEvent := by
  cases w with
  | admin w =>
    cases w with
    | staff w =>
      cases w with
      | create user audit => exact auditEvents_of_audited (keeps_auditEvents_insert _) h
      | update u audit => exact auditEvents_of_audited (keeps_auditEvents_save _) h
      | remove user audit =>
        apply auditEvents_of_audited _ h
        intro s t hs
        cases hs
        rfl
    | grant staffUser role platform audit =>
      apply auditEvents_of_audited _ h
      intro s t hs
      rw [grant_inserted hs]
    | revoke g audit =>
      apply auditEvents_of_audited _ h
      intro s t hs
      cases hs
      rfl
    | removePlatform p audit => exact auditEvents_of_audited (keeps_auditEvents_removePlatform _) h
  | refresh u =>
    rw [audits, List.map_nil, List.append_nil]
    exact keeps_auditEvents_save _ _ _ (body_one h)
  | provision claims =>
    rw [audits, List.map_nil, List.append_nil]
    exact keeps_auditEvents_insert _ _ _ (body_one h)

end AccessWrite

structure AuditTrail where
  db : Db
  inFlight : ℕ → Option AccessWrite
  trail : List AdminAudit

namespace AuditTrail

/-- An administrator's request, and a token of a person the deployment may not know yet. Each reads in one step
and writes in a later one. -/
inductive Action
  | check (slot : ℕ) (admin : AuthenticatedStaff) (r : AdminRequest)
  | authenticate (slot : ℕ) (claims : TokenClaims)
  | commit (slot : ℕ) (env : Env) (id : Uuid)

def start (db : Db) : AuditTrail := ⟨db, fun _ => none, []⟩

def hold (s : AuditTrail) (slot : ℕ) (w : Option AccessWrite) : AuditTrail :=
  { s with inFlight := Function.update s.inFlight slot w }

def step (cfg : AuthConfig) (s : AuditTrail) : Action → AuditTrail
  | .check slot admin r =>
    match AdminService.prepare cfg s.db admin r with
    | .error _ => s
    | .ok w => s.hold slot (some (.admin w))
  | .authenticate slot claims =>
    match AuthService.claimed s.db claims with
    | .refused | .known _ => s
    | .changed u => s.hold slot (some (.refresh u))
    | .firstContact => s.hold slot (some (.provision claims))
  | .commit slot env id =>
    match s.inFlight slot with
    | none => s
    | some w =>
      match w.commit env id s.db with
      | none => s.hold slot none
      | some db => { s.hold slot none with db, trail := s.trail ++ w.audits env.now id }

def CommitsFound (s : AuditTrail) : Action → Prop
  | .commit slot env id => ∀ w ∈ s.inFlight slot, (w.commit env id s.db).isSome = true → w.Found s.db
  | _ => True

/-- Who may act where can be read off the trail. -/
def Reconstructs (before : Db) (s : AuditTrail) : Prop :=
  AdminAudit.replay (Access.ofDb before) s.trail = Access.ofDb s.db

structure Inv (before : Db) (s : AuditTrail) : Prop where
  keys : (s.db.roles.map UserPlatformRole.id).Nodup
  recorded : ∀ slot, ∀ w ∈ s.inFlight slot, w.Recorded
  stored : s.db.auditEvents = before.auditEvents ++ s.trail.map AdminAudit.toAuditEvent

variable {cfg : AuthConfig} {before : Db} {s : AuditTrail}

theorem Inv.hold (hinv : Inv before s) (slot : ℕ) {w : Option AccessWrite} (hw : ∀ v ∈ w, v.Recorded) :
    Inv before (s.hold slot w) := by
  refine ⟨hinv.keys, fun other v hv => ?_, hinv.stored⟩
  by_cases hslot : other = slot
  · simp only [AuditTrail.hold, hslot, Function.update_self] at hv
    exact hw v hv
  · simp only [AuditTrail.hold, Function.update_of_ne hslot] at hv
    exact hinv.recorded other v hv

theorem step_inv (cfg : AuthConfig) (a : Action) (hinv : Inv before s) : Inv before (step cfg s a) := by
  cases a with
  | check slot admin r =>
    simp only [step]
    split
    · exact hinv
    · rename_i w hw
      apply hinv.hold
      intro v hv
      cases hv
      exact fun _ _ => AdminService.prepare_change hw
  | authenticate slot claims =>
    simp only [step]
    split
    · exact hinv
    · exact hinv
    · apply hinv.hold
      intro v hv
      cases hv
      trivial
    · apply hinv.hold
      intro v hv
      cases hv
      trivial
  | commit slot env id =>
    simp only [step]
    split
    · exact hinv
    · rename_i w hw
      have hfreed : Inv before (s.hold slot none) := hinv.hold slot (by simp)
      split
      · exact hfreed
      · rename_i db hdb
        refine ⟨AccessWrite.keys_commit hinv.keys hdb, hfreed.recorded, ?_⟩
        rw [List.map_append, ← List.append_assoc, ← hinv.stored]
        exact AccessWrite.auditEvents_commit hdb

theorem step_reconstructs_iff (a : Action) (hinv : Inv before s) (h : s.Reconstructs before) :
    (step cfg s a).Reconstructs before ↔ s.CommitsFound a := by
  cases a with
  | check slot admin r =>
    refine iff_of_true ?_ trivial
    simp only [step]
    split <;> exact h
  | authenticate slot claims =>
    refine iff_of_true ?_ trivial
    simp only [step]
    split <;> exact h
  | commit slot env id =>
    simp only [step, CommitsFound]
    cases hw : s.inFlight slot with
    | none => simpa using h
    | some w =>
      simp only [Option.mem_some_iff, forall_eq']
      cases hcommit : w.commit env id s.db with
      | none =>
        have hfreed : (s.hold slot none).Reconstructs before := h
        simpa using hfreed
      | some db =>
        have hcommitted := AccessWrite.ofDb_commit hinv.keys (hinv.recorded slot w hw) hcommit
        rw [← h, ← AdminAudit.replay_append, eq_comm] at hcommitted
        simp only [Option.isSome_some, forall_const]
        exact hcommitted

theorem start_inv (hkeys : (before.roles.map UserPlatformRole.id).Nodup) : Inv before (start before) where
  keys := hkeys
  recorded := by
    intro slot w hw
    cases hw
  stored := (List.append_nil _).symm

/-- However requests overlap, the trail tells who may act where at every moment exactly when each commit that goes
through finds what its request had loaded. -/
theorem always_reconstructs_iff (cfg : AuthConfig) (db : Db) (as : List Action)
    (hkeys : (db.roles.map UserPlatformRole.id).Nodup) :
    Always (step cfg) (Reconstructs db) (start db) as ↔ EveryStep (step cfg) CommitsFound (start db) as :=
  always_iff_everyStep (fun _ a h => step_inv cfg a h) (fun _ a hinv h => step_reconstructs_iff a hinv h)
    (start_inv hkeys) rfl as

/-- A rename, loaded before a disabling and saved after it. -/
def renameOverDisable : List Action :=
  [.check 0 Sample.rootStaff (.staff (.updateStaff "second" ⟨some "Segundo", none, none⟩)),
    .check 1 Sample.rootStaff (Sample.disable "second"), .commit 1 { now := 0 } "-", .commit 0 { now := 1 } "-"]

theorem always_reconstructs_iff_renamed :
    ¬ Always (step Sample.authConfig) (Reconstructs Sample.twoAdmins) (start Sample.twoAdmins) renameOverDisable := by
  intro h
  obtain ⟨_, _, _, hfound, _⟩ := (always_reconstructs_iff Sample.authConfig Sample.twoAdmins renameOverDisable
    (by decide)).mp h
  have hkept := hfound _ rfl rfl rfl
  revert hkept
  decide

/-- A request with the stage to itself. -/
inductive Request
  | administer (env : Env) (id : Uuid) (admin : AuthenticatedStaff) (r : AdminRequest)
  | contact (env : Env) (id : Uuid) (claims : TokenClaims)

def Request.actions : Request → List Action
  | .administer env id admin r => [.check 0 admin r, .commit 0 env id]
  | .contact env id claims => [.authenticate 0 claims, .commit 0 env id]

/-- The audit table is the trail, and the trail decides every question of access as the guards do. -/
structure Faithful (before : Db) (s : AuditTrail) : Prop where
  stored : s.db.auditEvents = before.auditEvents ++ s.trail.map AdminAudit.toAuditEvent
  decides : ∀ user ∈ s.db.staffUsers.rows, ∀ platformId roles,
    (AdminAudit.replay (Access.ofDb before) s.trail).Allows user.id platformId roles ↔ user.status = .active ∧
      ScopeService.canAccessPlatform (AuthService.toAuthenticated s.db user.toEntity) platformId roles = true

theorem faithful_of_reconstructs (hinv : Inv before s) (h : s.Reconstructs before) : Faithful before s := by
  refine ⟨hinv.stored, fun user huser platformId roles => ?_⟩
  rw [h]
  exact Access.allows_iff (Table.findOne_of_mem huser) platformId roles

theorem held_status {db : Db} {user : StaffUser} (huser : db.staffUsers.findOne user.id = some user) :
    user.status = .disabled ↔ user.id ∈ (Access.ofDb db).disabled := by
  rw [Access.mem_disabled, huser]
  simp

theorem prepare_found {admin : AuthenticatedStaff} {r : AdminRequest} {db : Db} {w : AdminWrite}
    (h : AdminService.prepare cfg db admin r = .ok w) : w.Found db := by
  cases r with
  | staff r =>
    obtain ⟨v, hv, rfl⟩ := AdminService.staff_ok h
    cases r with
    | createStaff dto passwordHash =>
      obtain ⟨_, audit, rfl⟩ := AdminService.createStaff_ok hv
      trivial
    | updateStaff i dto =>
      obtain ⟨user, huser, rfl⟩ := AdminService.updateStaff_write hv
      intro hkept
      have hstatus : (AdminService.updated cfg dto user).user.status = user.status := by
        rw [AdminService.updated_newStatus, Option.map_eq_none_iff.mp hkept, Option.getD_none]
      rw [hstatus, (AdminService.updated cfg dto user).id_eq]
      exact held_status (Table.findOne_self huser)
    | setStaffPassword i passwordHash =>
      obtain ⟨user, audit, huser, rfl⟩ := AdminService.setStaffPassword_ok hv
      exact fun _ => held_status (Table.findOne_self huser)
    | deleteStaff i =>
      obtain ⟨user, audit, _, rfl, _⟩ := AdminService.deleteStaff_ok hv
      trivial
  | assignRole dto =>
    obtain ⟨audit, rfl⟩ := AdminService.assignRole_ok h
    trivial
  | revokeRole roleId =>
    obtain ⟨grant, hgrant, rfl⟩ := AdminService.revokeRole_write h
    have hid : grant.id = roleId := by simpa using List.find?_some hgrant
    rw [AdminWrite.Found, hid, hgrant, Access.find?_grant,
      if_pos (List.mem_map_of_mem (List.mem_of_find?_eq_some hgrant))]
    rfl
  | deletePlatform i =>
    obtain ⟨platform, audit, _, rfl⟩ := AdminService.deletePlatform_ok h
    trivial

theorem claimed_found {claims : TokenClaims} {db : Db} {u : StaffUpdate}
    (h : AuthService.claimed db claims = .changed u) : (AccessWrite.refresh u).Found db := by
  obtain hrefused | ⟨user, huser, _, hknown | hchanged⟩ | ⟨_, _, hfirst⟩ := AuthService.claimed_cases db claims
  · rw [hrefused] at h
    cases h
  · rw [hknown] at h
    cases h
  · rw [hchanged] at h
    cases h
    exact held_status (Table.findOne_of_mem (List.mem_of_find?_eq_some huser))
  · rw [hfirst] at h
    cases h

theorem hold_self (s : AuditTrail) (slot : ℕ) (w : Option AccessWrite) : (s.hold slot w).inFlight slot = w := by
  simp [hold]

theorem commit_next (cfg : AuthConfig) (env : Env) (id : Uuid) (hfound : ∀ w ∈ s.inFlight 0, w.Found s.db) :
    s.CommitsFound (.commit 0 env id) ∧ (step cfg s (.commit 0 env id)).inFlight 0 = none := by
  refine ⟨fun w hw _ => hfound w hw, ?_⟩
  simp only [step]
  split
  · rename_i hfree
    exact hfree
  · split <;> exact hold_self s 0 none

theorem actions_found (r : Request) (hfree : s.inFlight 0 = none) :
    EveryStep (step cfg) CommitsFound s r.actions ∧ (exec (step cfg) s r.actions).inFlight 0 = none := by
  cases r with
  | administer env id admin r =>
    have hfound : ∀ w ∈ (step cfg s (.check 0 admin r)).inFlight 0, w.Found (step cfg s (.check 0 admin r)).db := by
      simp only [step]
      split
      · simp [hfree]
      · rename_i w hw
        intro v hv
        rw [hold_self] at hv
        cases hv
        exact prepare_found hw
    obtain ⟨hcommit, hdone⟩ := commit_next cfg env id hfound
    exact ⟨⟨trivial, hcommit, trivial⟩, hdone⟩
  | contact env id claims =>
    have hfound : ∀ w ∈ (step cfg s (.authenticate 0 claims)).inFlight 0,
        w.Found (step cfg s (.authenticate 0 claims)).db := by
      simp only [step]
      split
      · simp [hfree]
      · simp [hfree]
      · rename_i u hu
        intro v hv
        rw [hold_self] at hv
        cases hv
        exact claimed_found hu
      · intro v hv
        rw [hold_self] at hv
        cases hv
        trivial
    obtain ⟨hcommit, hdone⟩ := commit_next cfg env id hfound
    exact ⟨⟨trivial, hcommit, trivial⟩, hdone⟩

/-- Under requests that do not overlap the audit trail is a faithful account of who may act where. -/
theorem always_faithful (cfg : AuthConfig) (db : Db) (rs : List Request)
    (hkeys : (db.roles.map UserPlatformRole.id).Nodup) :
    Always (step cfg) (Faithful db) (start db) (rs.flatMap Request.actions) := by
  have hfound : EveryStep (step cfg) CommitsFound (start db) (rs.flatMap Request.actions) :=
    everyStep_flatMap (I := fun s => s.inFlight 0 = none) (fun _ r hfree => actions_found r hfree) rfl rs
  have hinv := always_of_step (I := Inv db) (fun _ a h => step_inv cfg a h) (start_inv hkeys)
    (rs.flatMap Request.actions)
  have hreconstructs := (always_reconstructs_iff cfg db _ hkeys).mpr hfound
  exact (hinv.and hreconstructs).mono fun s ⟨hinv, h⟩ => faithful_of_reconstructs hinv h

theorem always_faithful_disabled :
    Always (step Sample.authConfig) (Faithful Sample.twoAdmins) (start Sample.twoAdmins)
      ([.administer { now := 0 } "-" Sample.rootStaff (Sample.disable "second"),
        .administer { now := 1 } "grant" Sample.rootStaff (.assignRole ⟨"second", .developer, none⟩)].flatMap
          Request.actions) :=
  always_faithful Sample.authConfig Sample.twoAdmins _ (by decide)

end AuditTrail

end Cimp
