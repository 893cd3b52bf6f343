import Cimp.Auth.Admin

namespace Cimp

open Transaction

structure AssignRoleDto where
  staffUserId : Uuid
  role : Role
  platformId : Option Uuid
deriving DecidableEq, Repr

namespace Role

def value : Role → String
  | focalPoint => "FOCAL_POINT"
  | developer => "DEVELOPER"
  | admin => "ADMIN"
  | watcher => "WATCHER"

end Role

def UserPlatformRole.insert (g : UserPlatformRole) : Statement Db := fun db =>
  if db.staffUsers.findOne g.staffUser = none ∨ g.platform.any (fun p => (db.platforms.findOne p).isNone) then none
  -- the unique triple does not bind global grants: NULL platforms are distinct
  else if db.roles.any fun h => h.id = g.id ||
      (g.platform.isSome && h.staffUser = g.staffUser && h.role = g.role && h.platform = g.platform) then none
  else some { db with roles := db.roles ++ [g] }

def UserPlatformRole.remove (id : Uuid) : Statement Db := fun db =>
  some { db with roles := db.roles.filter fun g => g.id ≠ id }

/-- `DELETE` of a platform row: issues restrict it, what else hangs on it goes with it. -/
def Platform.remove (id : Uuid) : Statement Db := fun db =>
  let gone (reporter : Uuid) : Bool := (db.reporters.findOne reporter).any fun r => r.platform = id
  if db.issues.rows.any fun i => i.platform = id || gone i.reporter then none
  else some { db with
    platforms := db.platforms.delete id
    roles := db.roles.filter fun g => g.platform ≠ some id
    labels := db.labels.filter fun l => l.platform ≠ id
    issueLabels := db.issueLabels.filter fun l => (db.labels.findOne l.label).all fun label => label.platform ≠ id
    reporters := db.reporters.filter fun r => r.platform ≠ id
    views := db.views.filter fun v => !gone v.reporter
    csatResponses := db.csatResponses.filter fun r => !gone r.reporter
    webhookEndpoints := db.webhookEndpoints.filter fun e => e.platform ≠ some id }

theorem grant_inserted {db db' : Db} {g : UserPlatformRole} (h : UserPlatformRole.insert g db = some db') :
    db' = { db with roles := db.roles ++ [g] } := by
  unfold UserPlatformRole.insert at h
  split at h
  · cases h
  · split at h
    · cases h
    · cases h
      rfl

theorem grant_fresh {db db' : Db} {g : UserPlatformRole} (h : UserPlatformRole.insert g db = some db') :
    ∀ h ∈ db.roles, h.id ≠ g.id := by
  unfold UserPlatformRole.insert at h
  split at h
  · cases h
  · split at h
    · cases h
    · rename_i hnew
      intro other hother hid
      exact hnew (List.any_eq_true.mpr ⟨other, hother, by simp [hid]⟩)

theorem grant_removed {db db' : Db} {i : Uuid} (h : UserPlatformRole.remove i db = some db') :
    db'.staffUsers = db.staffUsers ∧ db'.roles = db.roles.filter fun g => g.id ≠ i := by
  cases h
  exact ⟨rfl, rfl⟩

theorem platform_removed {db db' : Db} {p : Uuid} (h : Platform.remove p db = some db') :
    db'.staffUsers = db.staffUsers ∧ db'.roles = db.roles.filter fun g => g.platform ≠ some p := by
  unfold Platform.remove at h
  dsimp only at h
  split at h
  · cases h
  · cases h
    exact ⟨rfl, rfl⟩

inductive AdminWrite
  | staff (w : StaffWrite)
  | grant (staffUser : Uuid) (role : Role) (platform : Option Uuid) (audit : AuditInput)
  | revoke (grant : UserPlatformRole) (audit : AuditInput)
  | removePlatform (platform : Platform) (audit : AuditInput)

def AdminWrite.commit (env : Env) (id : Uuid) : AdminWrite → Statement Db
  | .staff w => w.commit env id
  | .grant staffUser role platform audit =>
    body env.statement [UserPlatformRole.insert ⟨id, staffUser, platform, role⟩, AuditService.record env.now audit]
  | .revoke g audit => body env.statement [UserPlatformRole.remove g.id, AuditService.record env.now audit]
  | .removePlatform p audit => body env.statement [Platform.remove p.id, AuditService.record env.now audit]

inductive AdminRequest
  | staff (r : StaffRequest)
  | assignRole (dto : AssignRoleDto)
  | revokeRole (roleId : Uuid)
  | deletePlatform (id : Uuid)
deriving DecidableEq, Repr

namespace AdminService

variable (cfg : AuthConfig)

def assignRole (db : Db) (admin : AuthenticatedStaff) (dto : AssignRoleDto) : Except HttpException AdminWrite := do
  require (¬ (dto.role = .focalPoint ∧ dto.platformId = none))
    (.badRequest "Focal points must be scoped to a platform.")
  require (¬ (dto.role = .admin ∧ dto.platformId ≠ none)) (.badRequest "Admins are global; do not set a platform.")
  match db.staffUsers.findOne dto.staffUserId with
  | none => .error (.notFound "Staff user not found")
  | some user => do
    require (dto.platformId.all fun p => (db.platforms.findOne p).isSome) (.notFound "Platform not found")
    require (db.roles.all fun g => ¬ (g.staffUser = user.id ∧ g.role = dto.role ∧ g.platform = dto.platformId))
      (.conflict "That role assignment already exists.")
    return .grant user.id dto.role dto.platformId {
      issueId := none
      actorType := .staff
      actorId := admin.id
      action := "ROLE_ASSIGNED"
      newValue := dto.role.value }

def revokeRole (db : Db) (admin : AuthenticatedStaff) (roleId : Uuid) : Except HttpException AdminWrite :=
  match db.roles.find? fun g => g.id = roleId with
  | none => .error (.notFound "Role assignment not found")
  | some grant => do
    if grant.role = .admin ∧ (db.staffUsers.findOne grant.staffUser).isSome then
      assertNotLastAdmin db grant.staffUser "revoke ADMIN from"
    return .revoke grant {
      issueId := none
      actorType := .staff
      actorId := admin.id
      action := "ROLE_REVOKED"
      oldValue := grant.role.value }

def deletePlatform (db : Db) (admin : AuthenticatedStaff) (id : Uuid) : Except HttpException AdminWrite :=
  match db.platforms.findOne id with
  | none => .error (.notFound "Platform not found")
  | some platform => do
    let issueCount := db.issues.rows.countP fun i => i.platform = id
    require (issueCount = 0) (.conflict ("\"" ++ platform.key ++ "\" still has " ++ toString issueCount
      ++ " issue(s) and cannot be deleted. "
      ++ "Set its status to DISABLED to retire it while keeping the history."))
    return .removePlatform platform {
      issueId := none
      actorType := .staff
      actorId := admin.id
      action := "PLATFORM_DELETED"
      oldValue := platform.key }

def prepare (db : Db) (admin : AuthenticatedStaff) : AdminRequest → Except HttpException AdminWrite
  | .staff r => (load cfg db admin r).map .staff
  | .assignRole dto => assignRole db admin dto
  | .revokeRole roleId => revokeRole db admin roleId
  | .deletePlatform id => deletePlatform db admin id

def run (env : Env) (id : Uuid) (admin : AuthenticatedStaff) (r : AdminRequest) (db : Db) : Db :=
  match prepare cfg db admin r with
  | .error _ => db
  | .ok w => (w.commit env id db).getD db

variable {cfg : AuthConfig} {env : Env} {id : Uuid} {admin : AuthenticatedStaff} {db db' : Db} {w : AdminWrite}

theorem staff_ok {r : StaffRequest} (h : prepare cfg db admin (.staff r) = .ok w) :
    ∃ v, load cfg db admin r = .ok v ∧ w = .staff v := by
  cases hload : load cfg db admin r with
  | error e => simp [prepare, hload, Except.map] at h
  | ok v => exact ⟨v, rfl, by simpa [prepare, hload, Except.map] using h.symm⟩

theorem assignRole_ok {dto : AssignRoleDto} (h : assignRole db admin dto = .ok w) :
    ∃ audit, w = .grant dto.staffUserId dto.role dto.platformId audit := by
  unfold assignRole at h
  obtain ⟨_, _, h⟩ := bind_ok h
  obtain ⟨_, _, h⟩ := bind_ok h
  split at h
  · cases h
  · rename_i user huser
    obtain ⟨_, _, h⟩ := bind_ok h
    obtain ⟨_, _, h⟩ := bind_ok h
    cases h
    rw [← Table.findOne_key huser]
    exact ⟨_, rfl⟩

theorem revokeRole_ok {roleId : Uuid} (h : revokeRole db admin roleId = .ok w) :
    ∃ grant ∈ db.roles, ∃ audit, w = .revoke grant audit ∧
      (grant.role = .admin → (db.staffUsers.findOne grant.staffUser).isSome = true →
        assertNotLastAdmin db grant.staffUser "revoke ADMIN from" = .ok ()) := by
  unfold revokeRole at h
  split at h
  · cases h
  · rename_i grant hgrant
    refine ⟨grant, List.mem_of_find?_eq_some hgrant, ?_⟩
    split at h
    · obtain ⟨_, hassert, h⟩ := bind_ok h
      cases h
      exact ⟨_, rfl, fun _ _ => hassert⟩
    · rename_i hno
      cases h
      exact ⟨_, rfl, fun hrole huser => absurd ⟨hrole, huser⟩ hno⟩

theorem deletePlatform_ok {i : Uuid} (h : deletePlatform db admin i = .ok w) :
    ∃ platform audit, db.platforms.findOne i = some platform ∧ w = .removePlatform platform audit := by
  unfold deletePlatform at h
  split at h
  · cases h
  · rename_i platform hplatform
    obtain ⟨_, _, h⟩ := bind_ok h
    cases h
    exact ⟨platform, _, hplatform, rfl⟩

theorem run_cases (cfg : AuthConfig) (env : Env) (id : Uuid) (admin : AuthenticatedStaff) (r : AdminRequest) (db : Db) :
    run cfg env id admin r db = db ∨ ∃ w, prepare cfg db admin r = .ok w ∧
      w.commit env id db = some (run cfg env id admin r db) := by
  unfold run
  split
  · exact .inl rfl
  · rename_i w hw
    cases hcommit : w.commit env id db with
    | none => exact .inl rfl
    | some db' => exact .inr ⟨w, hw, hcommit⟩

end AdminService

/-- What administration makes of a staff row: its token version never falls, and rises where the account is
disabled. -/
def Ages : Option StaffUser → Option StaffUser → Prop
  | _, none => True
  | none, some _ => False
  | some u, some v =>
    u.tokenVersion ≤ v.tokenVersion ∧ (u.status = .active → v.status ≠ .active → u.tokenVersion < v.tokenVersion)

theorem Ages.refl (row : Option StaffUser) : Ages row row := by
  cases row with
  | none => trivial
  | some u => exact ⟨Nat.le_refl _, fun hactive hgone => absurd hactive hgone⟩

namespace AdminService

variable {cfg : AuthConfig} {env : Env} {id i : Uuid} {admin : AuthenticatedStaff} {db db' : Db}

theorem updated_status {dto : UpdateStaffDto} {user : StaffUser}
    (hkept : ¬ (dto.status = some .disabled ∧ user.status ≠ .disabled)) (hactive : user.status = .active) :
    (updated cfg dto user).user.status = .active := by
  have hrekeyed : ∀ email, (rekey cfg email (rename dto.name user.toEntity)).status = user.status := by
    intro email
    cases email <;> rfl
  simp only [updated, newStatus, hactive]
  rcases hstatus : dto.status with _ | _ | _
  · exact (hrekeyed _).trans hactive
  · exact (hrekeyed _).trans hactive
  · exact absurd ⟨hstatus, by simp [hactive]⟩ hkept

theorem updated_ages (cfg : AuthConfig) (dto : UpdateStaffDto) (user : StaffUser) :
    Ages (some user) (some ((updated cfg dto user).user.assign user)) := by
  refine ⟨(updated cfg dto user).version_le, fun hactive hgone => ?_⟩
  apply (updated cfg dto user).version_lt
  by_cases hdisables : newStatus dto user = some .disabled
  · simp [updated, hdisables]
  · refine absurd (updated_status (fun hkept => hdisables ?_) hactive) hgone
    obtain ⟨hdto, hlive⟩ := hkept
    simp [newStatus, hdto, Ne.symm hlive]

theorem save_ages {u : StaffUpdate} {user : StaffUser} (huser : db.staffUsers.findOne u.user.id = some user)
    (hages : Ages (some user) (some (u.user.assign user))) (h : u.user.save db = some db') :
    Ages (db.staffUsers.findOne i) (db'.staffUsers.findOne i) := by
  rw [StaffEntity.findOne_save h huser]
  split
  · rename_i hi
    rw [hi, huser]
    exact hages
  · exact Ages.refl _

theorem staff_ages {r : StaffRequest} {w : StaffWrite} (hload : load cfg db admin r = .ok w) (hi : i ≠ id)
    (hcommit : w.commit env id db = some db') : Ages (db.staffUsers.findOne i) (db'.staffUsers.findOne i) := by
  cases r with
  | createStaff dto passwordHash =>
    obtain ⟨_, audit, rfl⟩ := createStaff_ok hload
    obtain ⟨m, hm, rfl⟩ := AuditService.of_audited hcommit
    rw [StaffUser.findOne_insert hm, if_neg (show i ≠ ((newStaff cfg dto passwordHash).toRow id).id from hi)]
    exact Ages.refl _
  | updateStaff j dto =>
    obtain ⟨user, audit, huser, rfl, _⟩ := updateStaff_ok hload
    obtain ⟨m, hm, rfl⟩ := AuditService.of_audited hcommit
    have hstored : db.staffUsers.findOne (updated cfg dto user).user.id = some user := by
      rw [(updated cfg dto user).id_eq]
      exact Table.findOne_self huser
    have hages : Ages (db.staffUsers.findOne i) (m.staffUsers.findOne i) :=
      save_ages hstored (updated_ages cfg dto user) hm
    exact hages
  | setStaffPassword j passwordHash =>
    obtain ⟨user, audit, huser, rfl⟩ := setStaffPassword_ok hload
    obtain ⟨m, hm, rfl⟩ := AuditService.of_audited hcommit
    have hages : Ages (db.staffUsers.findOne i) (m.staffUsers.findOne i) :=
      save_ages (Table.findOne_self huser) ⟨Nat.le_succ _, fun _ _ => Nat.lt_succ_self _⟩ hm
    exact hages
  | deleteStaff j =>
    obtain ⟨user, audit, _, rfl, _⟩ := deleteStaff_ok hload
    obtain ⟨m, hm, rfl⟩ := AuditService.of_audited hcommit
    rw [StaffUser.findOne_remove hm]
    split
    · trivial
    · exact Ages.refl _

theorem run_ages (cfg : AuthConfig) (env : Env) (admin : AuthenticatedStaff) (r : AdminRequest) (db : Db) (hi : i ≠ id) :
    Ages (db.staffUsers.findOne i) ((run cfg env id admin r db).staffUsers.findOne i) := by
  obtain hsame | ⟨w, hw, hcommit⟩ := run_cases cfg env id admin r db
  · rw [hsame]
    exact Ages.refl _
  · have hsame : ∀ m : Db, m.staffUsers = db.staffUsers → Ages (db.staffUsers.findOne i) (m.staffUsers.findOne i) := by
      intro m hm
      rw [hm]
      exact Ages.refl _
    cases r with
    | staff r =>
      obtain ⟨v, hv, rfl⟩ := staff_ok hw
      exact staff_ages hv hi hcommit
    | assignRole dto =>
      obtain ⟨audit, rfl⟩ := assignRole_ok hw
      obtain ⟨m, hm, hdb⟩ := AuditService.of_audited hcommit
      rw [hdb]
      exact hsame m (by rw [grant_inserted hm])
    | revokeRole roleId =>
      obtain ⟨grant, _, audit, rfl, _⟩ := revokeRole_ok hw
      obtain ⟨m, hm, hdb⟩ := AuditService.of_audited hcommit
      rw [hdb]
      exact hsame m (grant_removed hm).1
    | deletePlatform j =>
      obtain ⟨platform, audit, _, rfl⟩ := deletePlatform_ok hw
      obtain ⟨m, hm, hdb⟩ := AuditService.of_audited hcommit
      rw [hdb]
      exact hsame m (platform_removed hm).1

end AdminService

end Cimp
