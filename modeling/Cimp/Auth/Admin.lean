import Cimp.Auth.Login

namespace Cimp

open Transaction

structure CreateStaffDto where
  name : String
  email : String
deriving DecidableEq, Repr

structure UpdateStaffDto where
  name : Option String
  email : Option String
  status : Option AccountStatus
deriving DecidableEq, Repr

namespace AccountStatus

def value : AccountStatus → String
  | active => "ACTIVE"
  | disabled => "DISABLED"

end AccountStatus

inductive StaffWrite
  | create (user : NewStaff) (audit : AuditInput)
  | update (u : StaffUpdate) (audit : AuditInput)
  | remove (user : StaffUser) (audit : AuditInput)

def Issue.unassign (staffId : Uuid) (i : Issue) : Issue :=
  { i with assignee := if i.assignee = some staffId then none else i.assignee }

@[simp] theorem Issue.unassign_id (staffId : Uuid) (i : Issue) : (i.unassign staffId).id = i.id := rfl

def Comment.disown (staffId : Uuid) (c : Comment) : Comment :=
  { c with author := if c.author = some staffId then none else c.author }

@[simp] theorem Comment.disown_id (staffId : Uuid) (c : Comment) : (c.disown staffId).id = c.id := rfl

def StaffUser.remove (staffId : Uuid) : Statement Db := fun db =>
  some { db with
    staffUsers := db.staffUsers.delete staffId
    roles := db.roles.filter fun g => g.staffUser ≠ staffId
    issueWatchers := db.issueWatchers.filter fun w => w.staffUser ≠ staffId
    issues := db.issues.modify (Issue.unassign staffId) (Issue.unassign_id staffId)
    comments := db.comments.modify (Comment.disown staffId) (Comment.disown_id staffId) }

theorem StaffUser.findOne_remove {db db' : Db} {staffId : Uuid} (h : StaffUser.remove staffId db = some db') (i : Uuid) :
    db'.staffUsers.findOne i = if i = staffId then none else db.staffUsers.findOne i := by
  cases h
  exact Table.findOne_delete _ _ _

namespace StaffWrite

/-- The transaction; `id` is the key the database generates for an inserted row. -/
def commit (env : Env) (id : Uuid) : StaffWrite → Statement Db
  | .create user audit => body env.statement [(user.toRow id).insert, AuditService.record env.now audit]
  | .update u audit => body env.statement [u.user.save, AuditService.record env.now audit]
  | .remove user audit => body env.statement [StaffUser.remove user.id, AuditService.record env.now audit]

/-- The row whose sessions the commit revokes: by a password reset, a disabling, a change of the email
address or a deletion. -/
def revokes : StaffWrite → Option Uuid
  | .create _ _ => none
  | .update u _ => if u.revokes then some u.user.id else none
  | .remove user _ => some user.id

end StaffWrite

inductive StaffRequest
  | createStaff (dto : CreateStaffDto) (passwordHash : String)
  | updateStaff (id : Uuid) (dto : UpdateStaffDto)
  | setStaffPassword (id : Uuid) (passwordHash : String)
  | deleteStaff (id : Uuid)
deriving DecidableEq, Repr

namespace AdminService

variable (cfg : AuthConfig)

def newStaff (dto : CreateStaffDto) (passwordHash : String) : NewStaff :=
  ⟨localSubject cfg (cfg.toLowerCase dto.email), dto.name, cfg.toLowerCase dto.email, passwordHash⟩

def withEmail (db : Db) (email : String) : Option StaffUser :=
  db.staffUsers.rows.find? fun u => u.email = email || u.idpSubject = localSubject cfg email

def emailTaken : HttpException := .conflict "A staff user with that email already exists."

def createStaff (db : Db) (admin : AuthenticatedStaff) (dto : CreateStaffDto) (passwordHash : String) :
    Except HttpException StaffWrite := do
  require (withEmail cfg db (cfg.toLowerCase dto.email)).isNone emailTaken
  return .create (newStaff cfg dto passwordHash) {
    issueId := none
    actorType := .staff
    actorId := admin.id
    action := "STAFF_CREATED"
    newValue := cfg.toLowerCase dto.email }

def assertNotLastAdmin (db : Db) (staffUserId : Uuid) (action : String) : Except HttpException Unit :=
  require (db.roles.any fun g => g.role = .admin && g.staffUser ≠ staffUserId &&
      (db.staffUsers.findOne g.staffUser).any fun u => u.status = .active)
    (.conflict ("Cannot " ++ action
      ++ " the last active administrator. Grant ADMIN to another staff member first."))

def newEmail (dto : UpdateStaffDto) (user : StaffUser) : Option String :=
  (dto.email.map cfg.toLowerCase).filter fun email => email ≠ user.email

def newStatus (dto : UpdateStaffDto) (user : StaffUser) : Option AccountStatus :=
  dto.status.filter fun status => status ≠ user.status

def rename (name : Option String) (user : StaffEntity) : StaffEntity :=
  { user with name := name.getD user.name }

def rekey (email : Option String) (user : StaffEntity) : StaffEntity :=
  match email with
  | none => user
  | some email =>
    { user with email, idpSubject := localSubject cfg email, tokenVersion := user.tokenVersion + 1 }

def restatus (status : Option AccountStatus) (user : StaffEntity) : StaffEntity :=
  match status with
  | none => user
  | some .active => { user with status := .active }
  | some .disabled => { user with status := .disabled, tokenVersion := user.tokenVersion + 1 }

@[simp] theorem rename_id (name : Option String) (user : StaffEntity) : (rename name user).id = user.id := rfl

@[simp] theorem rename_tokenVersion (name : Option String) (user : StaffEntity) :
    (rename name user).tokenVersion = user.tokenVersion := rfl

@[simp] theorem rekey_id (email : Option String) (user : StaffEntity) : (rekey cfg email user).id = user.id := by
  cases email <;> rfl

theorem rekey_tokenVersion (email : Option String) (user : StaffEntity) :
    (rekey cfg email user).tokenVersion = user.tokenVersion + if email.isSome then 1 else 0 := by
  cases email <;> rfl

@[simp] theorem restatus_id (status : Option AccountStatus) (user : StaffEntity) :
    (restatus status user).id = user.id := by
  rcases status with _ | _ | _ <;> rfl

theorem restatus_tokenVersion (status : Option AccountStatus) (user : StaffEntity) :
    (restatus status user).tokenVersion = user.tokenVersion + if status = some .disabled then 1 else 0 := by
  rcases status with _ | _ | _ <;> rfl

def updated (dto : UpdateStaffDto) (user : StaffUser) : StaffUpdate where
  loaded := user
  user := restatus (newStatus dto user) (rekey cfg (newEmail cfg dto user) (rename dto.name user.toEntity))
  revokes := (newEmail cfg dto user).isSome || newStatus dto user = some .disabled
  id_eq := by simp [StaffUser.toEntity]
  version_le := by
    rw [restatus_tokenVersion, rekey_tokenVersion]
    simp only [rename_tokenVersion, StaffUser.toEntity]
    omega
  version_lt := by
    intro h
    rw [restatus_tokenVersion, rekey_tokenVersion]
    simp only [rename_tokenVersion, StaffUser.toEntity]
    rcases Bool.or_eq_true _ _ |>.mp h with hemail | hstatus
    · rw [if_pos hemail]
      omega
    · rw [if_pos (of_decide_eq_true hstatus)]
      omega

def updateStaff (db : Db) (admin : AuthenticatedStaff) (id : Uuid) (dto : UpdateStaffDto) :
    Except HttpException StaffWrite :=
  match db.staffUsers.findOne id with
  | none => .error (.notFound "Staff user not found")
  | some user => do
    if dto.status = some .disabled ∧ user.status ≠ .disabled then
      require (user.id ≠ admin.id) (.badRequest "You cannot disable your own account.")
      assertNotLastAdmin db user.id "disable"
    require ((newEmail cfg dto user).all fun email => (withEmail cfg db email).all fun clash => clash.id = user.id)
      emailTaken
    return .update (updated cfg dto user) {
      issueId := none
      actorType := .staff
      actorId := admin.id
      action := "STAFF_UPDATED"
      newValue := dto.status.map AccountStatus.value }

def deleteStaff (db : Db) (admin : AuthenticatedStaff) (id : Uuid) : Except HttpException StaffWrite :=
  match db.staffUsers.findOne id with
  | none => .error (.notFound "Staff user not found")
  | some user => do
    require (user.id ≠ admin.id) (.badRequest "You cannot delete your own account.")
    assertNotLastAdmin db user.id "delete"
    return .remove user {
      issueId := none
      actorType := .staff
      actorId := admin.id
      action := "STAFF_DELETED"
      oldValue := user.email }

def reset (passwordHash : String) (user : StaffUser) : StaffUpdate where
  loaded := user
  user := { user.toEntity with passwordHash := some (some passwordHash), tokenVersion := user.tokenVersion + 1 }
  revokes := true
  id_eq := rfl
  version_le := Nat.le_succ _
  version_lt := fun _ => Nat.lt_succ_self _

def setStaffPassword (db : Db) (admin : AuthenticatedStaff) (id : Uuid) (passwordHash : String) :
    Except HttpException StaffWrite :=
  match db.staffUsers.findOne id with
  | none => .error (.notFound "Staff user not found")
  | some user =>
    .ok (.update (reset passwordHash user) {
      issueId := none
      actorType := .staff
      actorId := admin.id
      action := "STAFF_PASSWORD_SET" })

def load (db : Db) (admin : AuthenticatedStaff) : StaffRequest → Except HttpException StaffWrite
  | .createStaff dto passwordHash => createStaff cfg db admin dto passwordHash
  | .updateStaff id dto => updateStaff cfg db admin id dto
  | .setStaffPassword id passwordHash => setStaffPassword db admin id passwordHash
  | .deleteStaff id => deleteStaff db admin id

variable {cfg : AuthConfig} {db : Db} {admin : AuthenticatedStaff} {w : StaffWrite}

theorem createStaff_ok {dto : CreateStaffDto} {passwordHash : String}
    (h : createStaff cfg db admin dto passwordHash = .ok w) :
    withEmail cfg db (cfg.toLowerCase dto.email) = none ∧ ∃ audit, w = .create (newStaff cfg dto passwordHash) audit := by
  obtain ⟨_, hfree, h⟩ := bind_ok h
  cases h
  exact ⟨Option.isNone_iff_eq_none.mp (require_ok hfree), _, rfl⟩

theorem updateStaff_ok {id : Uuid} {dto : UpdateStaffDto} (h : updateStaff cfg db admin id dto = .ok w) :
    ∃ user audit, db.staffUsers.findOne id = some user ∧ w = .update (updated cfg dto user) audit ∧
      (dto.status = some .disabled → user.status ≠ .disabled →
        user.id ≠ admin.id ∧ assertNotLastAdmin db user.id "disable" = .ok ()) := by
  unfold updateStaff at h
  split at h
  · cases h
  · rename_i user huser
    split at h
    · obtain ⟨_, hself, h⟩ := bind_ok h
      obtain ⟨_, hassert, h⟩ := bind_ok h
      obtain ⟨_, _, h⟩ := bind_ok h
      cases h
      exact ⟨user, _, huser, rfl, fun _ _ => ⟨require_decide hself, hassert⟩⟩
    · rename_i hkept
      obtain ⟨_, _, h⟩ := bind_ok h
      cases h
      exact ⟨user, _, huser, rfl, fun hdto hstatus => absurd ⟨hdto, hstatus⟩ hkept⟩

theorem setStaffPassword_ok {id : Uuid} {passwordHash : String} (h : setStaffPassword db admin id passwordHash = .ok w) :
    ∃ user audit, db.staffUsers.findOne id = some user ∧ w = .update (reset passwordHash user) audit := by
  unfold setStaffPassword at h
  split at h
  · cases h
  · rename_i user huser
    cases h
    exact ⟨user, _, huser, rfl⟩

theorem deleteStaff_ok {id : Uuid} (h : deleteStaff db admin id = .ok w) :
    ∃ user audit, db.staffUsers.findOne id = some user ∧ w = .remove user audit ∧
      user.id ≠ admin.id ∧ assertNotLastAdmin db user.id "delete" = .ok () := by
  unfold deleteStaff at h
  split at h
  · cases h
  · rename_i user huser
    obtain ⟨_, hself, h⟩ := bind_ok h
    obtain ⟨_, hassert, h⟩ := bind_ok h
    cases h
    exact ⟨user, _, huser, rfl, require_decide hself, hassert⟩

end AdminService

end Cimp
