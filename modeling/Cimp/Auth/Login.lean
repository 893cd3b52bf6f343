import Cimp.Issues.Changes

namespace Cimp

structure AuthConfig where
  enabled : Bool
  jwtExpiresIn : ℕ
  toLowerCase : String → String
  lower : String → String
  compare : String → String → Bool

def localSubjectPrefix : String := "local:"

def localSubject (cfg : AuthConfig) (email : String) : String := localSubjectPrefix ++ cfg.toLowerCase email

def isLocalSubject (sub : String) : Bool := localSubjectPrefix.toList.isPrefixOf sub.toList

/-- A staff row as the repository loads it: the password hash only where the code assigned one. -/
structure StaffEntity where
  id : Uuid
  idpSubject : String
  name : String
  email : String
  passwordHash : Option (Option String)
  status : AccountStatus
  tokenVersion : ℕ
deriving DecidableEq, Repr

def StaffUser.toEntity (row : StaffUser) : StaffEntity where
  id := row.id
  idpSubject := row.idpSubject
  name := row.name
  email := row.email
  passwordHash := none
  status := row.status
  tokenVersion := row.tokenVersion

def StaffUser.taken (row : StaffUser) (db : Db) : Bool :=
  db.staffUsers.rows.any fun r => r.id ≠ row.id && (r.idpSubject = row.idpSubject || r.email = row.email)

def StaffUser.insert (row : StaffUser) : Statement Db := fun db =>
  if row.taken db then none else (db.staffUsers.insert row).map fun staffUsers => { db with staffUsers }

structure NewStaff where
  idpSubject : String
  name : String
  email : String
  passwordHash : Option String
deriving DecidableEq, Repr

def NewStaff.toRow (user : NewStaff) (id : Uuid) : StaffUser where
  id := id
  idpSubject := user.idpSubject
  name := user.name
  email := user.email
  passwordHash := user.passwordHash
  status := .active
  tokenVersion := 1

namespace StaffEntity

def assign (e : StaffEntity) (row : StaffUser) : StaffUser where
  id := row.id
  idpSubject := e.idpSubject
  name := e.name
  email := e.email
  passwordHash := e.passwordHash.getD row.passwordHash
  status := e.status
  tokenVersion := e.tokenVersion

@[simp] theorem assign_id (e : StaffEntity) (row : StaffUser) : (e.assign row).id = row.id := rfl

def toRow (e : StaffEntity) : StaffUser where
  id := e.id
  idpSubject := e.idpSubject
  name := e.name
  email := e.email
  passwordHash := e.passwordHash.getD none
  status := e.status
  tokenVersion := e.tokenVersion

def save (e : StaffEntity) : Statement Db := fun db =>
  match db.staffUsers.findOne e.id with
  | none => e.toRow.insert db
  | some _ =>
    if e.toRow.taken db then none
    else some { db with staffUsers := db.staffUsers.update e.id e.assign e.assign_id }

end StaffEntity

theorem StaffUser.findOne_insert {db db' : Db} {row : StaffUser} (h : row.insert db = some db') (i : Uuid) :
    db'.staffUsers.findOne i = if i = row.id then some row else db.staffUsers.findOne i := by
  unfold StaffUser.insert at h
  split at h
  · cases h
  · obtain ⟨t, ht, rfl⟩ := Option.map_eq_some_iff.mp h
    exact Table.findOne_insert ht i

theorem StaffEntity.findOne_save {db db' : Db} {e : StaffEntity} {row : StaffUser} (h : e.save db = some db')
    (hrow : db.staffUsers.findOne e.id = some row) (i : Uuid) :
    db'.staffUsers.findOne i = if i = e.id then some (e.assign row) else db.staffUsers.findOne i := by
  unfold StaffEntity.save at h
  rw [hrow] at h
  dsimp only at h
  split at h
  · cases h
  · cases h
    rw [Table.findOne_update _ _ _ e.assign_id]
    split
    · rename_i hi
      rw [hi, hrow, Option.map_some]
    · rfl

/-- A staff row between its load and its save. A change that revokes sessions moves the token version. -/
structure StaffUpdate where
  loaded : StaffUser
  user : StaffEntity
  revokes : Bool
  id_eq : user.id = loaded.id
  version_le : loaded.tokenVersion ≤ user.tokenVersion
  version_lt : revokes = true → loaded.tokenVersion < user.tokenVersion

structure TokenClaims where
  sub : String
  name : Option String
  email : Option String
  tv : Option ℕ
deriving DecidableEq, Repr

structure JwtPayload where
  sub : Option String
  name : Option String
  email : Option String
  tv : Option ℕ
  aud : Option String
  exp : ℕ
deriving DecidableEq, Repr

namespace AuthService

def toAuthenticated (db : Db) (user : StaffEntity) : AuthenticatedStaff :=
  ⟨user.id, user.idpSubject, user.name, user.email, loadRoles db user.id⟩

inductive Claimed
  | refused
  | known (user : StaffUser)
  | changed (update : StaffUpdate)
  | firstContact

def refreshed (claims : TokenClaims) (user : StaffUser) : StaffUpdate where
  loaded := user
  user := { user.toEntity with name := claims.name.getD user.name, email := claims.email.getD user.email }
  revokes := false
  id_eq := rfl
  version_le := Nat.le_refl _
  version_lt := fun h => by cases h

def bySubject (db : Db) (sub : String) : Option StaffUser :=
  db.staffUsers.rows.find? fun u => u.idpSubject = sub

def accepts (claims : TokenClaims) (user : StaffUser) : Bool :=
  user.status = .active && claims.tv = some user.tokenVersion

def claimed (db : Db) (claims : TokenClaims) : Claimed :=
  if claims.sub = "" then .refused
  else match bySubject db claims.sub with
    | some user =>
      if accepts claims user = false then .refused
      else if user.name ≠ claims.name.getD user.name ∨ user.email ≠ claims.email.getD user.email then
        .changed (refreshed claims user)
      else .known user
    | none => if isLocalSubject claims.sub then .refused else .firstContact

def answerKnown (env : Env) (user : StaffUser) (db : Db) : Option AuthenticatedStaff :=
  if env.read then none else some (toAuthenticated db user.toEntity)

def answerChanged (env : Env) (update : StaffUpdate) (db : Db) : Db × Option AuthenticatedStaff :=
  match Transaction.body env.statement [update.user.save] db with
  | none => (db, none)
  | some saved => (saved, if env.read then none else some (toAuthenticated saved update.user))

def newStaff (claims : TokenClaims) : NewStaff :=
  ⟨claims.sub, claims.name.getD claims.sub, claims.email.getD "", none⟩

/-- First sight of an external subject; a lost race for a unique column reads the winner's row. -/
def answerFirstContact (env : Env) (claims : TokenClaims) (id : Uuid) (db : Db) :
    Db × Option AuthenticatedStaff :=
  if env.statement 0 then (db, none)
  else
    let user := (newStaff claims).toRow id
    match user.insert db with
    | some saved => (saved, if env.read then none else some (toAuthenticated saved user.toEntity))
    | none =>
      match bySubject db claims.sub with
      | none => (db, none)
      | some user => (db, if accepts claims user then answerKnown env user db else none)

def upsertFromClaims (env : Env) (claims : TokenClaims) (id : Uuid) (db : Db) : Db × Option AuthenticatedStaff :=
  match claimed db claims with
  | .refused => (db, none)
  | .known user => (db, answerKnown env user db)
  | .changed u => answerChanged env u db
  | .firstContact => answerFirstContact env claims id db

theorem claimed_cases (db : Db) (claims : TokenClaims) :
    claimed db claims = .refused ∨
      (∃ user, bySubject db claims.sub = some user ∧ accepts claims user = true ∧
        (claimed db claims = .known user ∨ claimed db claims = .changed (refreshed claims user))) ∨
      bySubject db claims.sub = none ∧ isLocalSubject claims.sub = false ∧ claimed db claims = .firstContact := by
  unfold claimed
  split
  · exact .inl rfl
  · cases huser : bySubject db claims.sub with
    | none =>
      cases hlocal : isLocalSubject claims.sub with
      | true => exact .inl rfl
      | false => exact .inr (.inr ⟨rfl, rfl, rfl⟩)
    | some user =>
      cases haccepts : accepts claims user with
      | false => exact .inl (by simp [haccepts])
      | true =>
        refine .inr (.inl ⟨user, rfl, haccepts, ?_⟩)
        simp only [haccepts]
        split
        · contradiction
        · split
          · exact .inr rfl
          · exact .inl rfl

theorem answerChanged_cases (env : Env) (update : StaffUpdate) (db : Db) :
    answerChanged env update db = (db, none) ∨
      ∃ saved, Transaction.body env.statement [update.user.save] db = some saved ∧
        answerChanged env update db =
          (saved, if env.read then none else some (toAuthenticated saved update.user)) := by
  unfold answerChanged
  split
  · exact .inl rfl
  · rename_i saved hsaved
    exact .inr ⟨saved, hsaved, rfl⟩

end AuthService

namespace LocalAuthService

def dummyPasswordHash : String := "$2b$10$82wMrkjV.nAre/g4lc5ShO17AgB93b/683kSzby9t8SxeyAmEtgaa"

def login (cfg : AuthConfig) (db : Db) (email password : String) : Except HttpException StaffUser :=
  if cfg.enabled = false then .error (.unauthorized "Password login is not enabled.")
  else
    let user := db.staffUsers.rows.find? fun u => cfg.lower u.email = cfg.lower email
    let hash := (user.bind StaffUser.passwordHash).getD dummyPasswordHash
    match user with
    | none => .error (.unauthorized "Invalid email or password.")
    | some user => do
      require (user.passwordHash.any (· ≠ "") && cfg.compare password hash)
        (.unauthorized "Invalid email or password.")
      require (user.status = .active) (.unauthorized "This account is disabled.")
      return user

def sign (cfg : AuthConfig) (now : Time) (user : StaffUser) : JwtPayload where
  sub := user.idpSubject
  name := user.name
  email := user.email
  tv := user.tokenVersion
  aud := none
  exp := now / 1000 + cfg.jwtExpiresIn

def sessionClaims (cfg : AuthConfig) (now : Time) (token : JwtPayload) : Option TokenClaims :=
  if cfg.enabled = false then none
  else if token.exp ≤ now / 1000 then none
  else if token.aud ≠ none then none
  else match token.sub with
    | none => none
    | some sub => if sub = "" then none else some ⟨sub, token.name, token.email, token.tv⟩

theorem login_ok {cfg : AuthConfig} {db : Db} {email password : String} {user : StaffUser}
    (h : login cfg db email password = .ok user) :
    db.staffUsers.findOne user.id = some user := by
  unfold login at h
  split at h
  · cases h
  · dsimp only at h
    split at h
    · cases h
    · rename_i found hfound
      obtain ⟨_, _, h⟩ := bind_ok h
      obtain ⟨_, _, h⟩ := bind_ok h
      cases h
      exact Table.findOne_of_mem (List.mem_of_find?_eq_some hfound)

theorem sessionClaims_sign {cfg : AuthConfig} {now signedAt : Time} {user : StaffUser} {claims : TokenClaims}
    (h : sessionClaims cfg now (sign cfg signedAt user) = some claims) :
    claims.sub = user.idpSubject ∧ claims.tv = some user.tokenVersion ∧
      now / 1000 < (sign cfg signedAt user).exp := by
  simp only [sessionClaims, sign, ne_eq, not_true_eq_false, if_false, Option.ite_none_left_eq_some] at h
  obtain ⟨_, hfresh, _, h⟩ := h
  cases h
  exact ⟨rfl, rfl, Nat.lt_of_not_le hfresh⟩

end LocalAuthService

end Cimp
