import Cimp.Auth.LastAdmin

namespace Cimp

open Execution Transaction

structure Profile where
  name : String
  email : String
deriving DecidableEq, Repr

def StaffUser.profile (u : StaffUser) : Profile := ⟨u.name, u.email⟩

def TokenClaims.profile (claims : TokenClaims) (user : StaffUser) : Profile :=
  ⟨claims.name.getD user.name, claims.email.getD user.email⟩

def UpdateStaffDto.edit (cfg : AuthConfig) (dto : UpdateStaffDto) (p : Profile) : Profile :=
  ⟨dto.name.getD p.name, (dto.email.map cfg.toLowerCase).getD p.email⟩

/-- The staff table under requests that run one after the other. `written` is what a request was last
told to store in a row. -/
structure Profiles where
  db : Db
  clock : Time
  tokens : List JwtPayload
  written : Uuid → Option Profile

namespace Profiles

inductive Action
  | tick (d : ℕ)
  | login (email password : String)
  | administer (env : Env) (id : Uuid) (admin : AuthenticatedStaff) (r : StaffRequest)
  | authenticate (env : Env) (id : Uuid) (token : ℕ)

def profiles (db : Db) (i : Uuid) : Option Profile := (db.staffUsers.findOne i).map StaffUser.profile

def start (db : Db) (clock : Time) : Profiles := ⟨db, clock, [], profiles db⟩

def record (cfg : AuthConfig) (id : Uuid) (written : Uuid → Option Profile) : StaffRequest → Uuid → Option Profile
  | .createStaff dto _ => Function.update written id (some ⟨dto.name, cfg.toLowerCase dto.email⟩)
  | .updateStaff i dto => Function.update written i ((written i).map (dto.edit cfg))
  | .setStaffPassword _ _ | .deleteStaff _ => written

def administer (cfg : AuthConfig) (s : Profiles) (env : Env) (id : Uuid) (admin : AuthenticatedStaff)
    (r : StaffRequest) : Profiles :=
  match AdminService.load cfg s.db admin r with
  | .error _ => s
  | .ok w =>
    match w.commit env id s.db with
    | none => s
    | some db => { s with db, written := record cfg id s.written r }

/-- What the guard makes of a token it was handed, for the subjects that the admin panel provisions. -/
def claims (cfg : AuthConfig) (s : Profiles) (token : ℕ) : Option TokenClaims :=
  (s.tokens[token]?.bind (LocalAuthService.sessionClaims cfg s.clock)).filter fun c => isLocalSubject c.sub

def step (cfg : AuthConfig) (s : Profiles) : Action → Profiles
  | .tick d => { s with clock := s.clock + d }
  | .login email password =>
    match LocalAuthService.login cfg s.db email password with
    | .error _ => s
    | .ok user => { s with tokens := s.tokens ++ [LocalAuthService.sign cfg s.clock user] }
  | .administer env id admin r => s.administer cfg env id admin r
  | .authenticate env id token =>
    match s.claims cfg token with
    | none => s
    | some c => { s with db := (AuthService.upsertFromClaims env c id s.db).1 }

def Kept (s : Profiles) : Prop := ∀ u ∈ s.db.staffUsers.rows, s.written u.id = some u.profile

instance decidableKept (s : Profiles) : Decidable (Kept s) := List.decidableBAll _ _

/-- A request whose token refreshes the row brings the name and the address that are stored there. -/
def CarriesProfile (cfg : AuthConfig) (s : Profiles) : Action → Prop
  | .authenticate env _ token => ∀ c ∈ s.claims cfg token, ∀ user ∈ AuthService.bySubject s.db c.sub,
      AuthService.accepts c user = true →
      (body env.statement [(AuthService.refreshed c user).user.save] s.db).isSome = true → c.profile user = user.profile
  | _ => True

variable {cfg : AuthConfig} {s : Profiles} {db : Db} {env : Env} {id : Uuid} {admin : AuthenticatedStaff}

theorem kept_iff : Kept s ↔ ∀ i u, s.db.staffUsers.findOne i = some u → s.written i = some u.profile := by
  constructor
  · intro h i u hu
    rw [← Table.findOne_key hu]
    exact h u (Table.mem_of_findOne hu)
  · intro h u hu
    exact h u.id u (Table.findOne_of_mem hu)

theorem start_kept (db : Db) (clock : Time) : Kept (start db clock) := by
  rw [kept_iff]
  intro i u hu
  simp only [start] at hu
  simp only [start, profiles, hu, Option.map_some]

theorem kept_put {row : StaffUser} {i : Uuid} (hkept : Kept s)
    (hfind : ∀ j, db.staffUsers.findOne j = if j = i then some row else s.db.staffUsers.findOne j) :
    Kept { s with db, written := Function.update s.written i (some row.profile) } := by
  rw [kept_iff] at hkept ⊢
  intro j u hu
  simp only [hfind] at hu
  by_cases hj : j = i
  · rw [if_pos hj] at hu
    cases hu
    rw [hj]
    exact Function.update_self ..
  · rw [if_neg hj] at hu
    exact (Function.update_of_ne hj ..).trans (hkept j u hu)

theorem kept_of_find (hkept : Kept s)
    (hfind : ∀ j u, db.staffUsers.findOne j = some u → s.db.staffUsers.findOne j = some u) : Kept { s with db } := by
  rw [kept_iff] at hkept ⊢
  exact fun j u hu => hkept j u (hfind j u hu)

theorem updated_profile (dto : UpdateStaffDto) (user : StaffUser) :
    ((AdminService.updated cfg dto user).user.assign user).profile = dto.edit cfg user.profile := by
  have hstatus : ∀ (status : Option AccountStatus) (e : StaffEntity),
      ((AdminService.restatus status e).assign user).profile = (e.assign user).profile := by
    intro status e
    rcases status with _ | _ | _ <;> rfl
  simp only [AdminService.updated, hstatus, AdminService.newEmail, UpdateStaffDto.edit]
  cases hemail : dto.email with
  | none => rfl
  | some email =>
    by_cases hsame : cfg.toLowerCase email = user.email
    · simp [Option.filter, hsame, AdminService.rekey, AdminService.rename, StaffEntity.assign, StaffUser.profile,
        StaffUser.toEntity]
    · simp [Option.filter, hsame, AdminService.rekey, AdminService.rename, StaffEntity.assign, StaffUser.profile,
        StaffUser.toEntity]

theorem administer_kept {r : StaffRequest} {w : StaffWrite} (hkept : Kept s)
    (hload : AdminService.load cfg s.db admin r = .ok w) (hcommit : w.commit env id s.db = some db) :
    Kept { s with db, written := record cfg id s.written r } := by
  cases r with
  | createStaff dto passwordHash =>
    obtain ⟨_, audit, rfl⟩ := AdminService.createStaff_ok hload
    obtain ⟨m, hm, rfl⟩ := AuditService.of_audited hcommit
    exact kept_put hkept (StaffUser.findOne_insert hm)
  | updateStaff i dto =>
    obtain ⟨user, audit, huser, rfl, _⟩ := AdminService.updateStaff_ok hload
    obtain ⟨m, hm, rfl⟩ := AuditService.of_audited hcommit
    have hid : (AdminService.updated cfg dto user).user.id = i :=
      (AdminService.updated cfg dto user).id_eq.trans (Table.findOne_key huser)
    have hput := kept_put hkept (StaffEntity.findOne_save hm (by rw [hid]; exact huser))
    rw [updated_profile, hid] at hput
    simp only [record, kept_iff.mp hkept i user huser, Option.map_some]
    exact hput
  | setStaffPassword i passwordHash =>
    obtain ⟨user, audit, huser, rfl⟩ := AdminService.setStaffPassword_ok hload
    obtain ⟨m, hm, rfl⟩ := AuditService.of_audited hcommit
    have hid : (AdminService.reset passwordHash user).user.id = i :=
      (AdminService.reset passwordHash user).id_eq.trans (Table.findOne_key huser)
    have hput := kept_put hkept (StaffEntity.findOne_save hm (by rw [hid]; exact huser))
    have hsame : Function.update s.written i (some user.profile) = s.written := by
      rw [← kept_iff.mp hkept i user huser, Function.update_eq_self]
    rw [hid] at hput
    exact hsame ▸ hput
  | deleteStaff i =>
    obtain ⟨user, audit, _, rfl, _⟩ := AdminService.deleteStaff_ok hload
    obtain ⟨m, hm, rfl⟩ := AuditService.of_audited hcommit
    apply kept_of_find hkept
    intro j u hu
    simp only [StaffUser.findOne_remove hm] at hu
    split at hu
    · cases hu
    · exact hu

theorem claims_local {token : ℕ} {c : TokenClaims} (h : s.claims cfg token = some c) :
    isLocalSubject c.sub = true ∧ c.sub ≠ "" := by
  obtain ⟨_, hlocal⟩ := Option.filter_eq_some_iff.mp h
  refine ⟨hlocal, fun hempty => ?_⟩
  rw [hempty] at hlocal
  cases hlocal

theorem upsert_kept_iff {c : TokenClaims} (hkept : Kept s) (hlocal : isLocalSubject c.sub = true) (hsub : c.sub ≠ "") :
    Kept { s with db := (AuthService.upsertFromClaims env c id s.db).1 } ↔
      ∀ user ∈ AuthService.bySubject s.db c.sub, AuthService.accepts c user = true →
        (body env.statement [(AuthService.refreshed c user).user.save] s.db).isSome = true →
          c.profile user = user.profile := by
  unfold AuthService.upsertFromClaims AuthService.claimed
  rw [if_neg hsub]
  cases huser : AuthService.bySubject s.db c.sub with
  | none => simpa [hlocal] using hkept
  | some user =>
    have hfind : s.db.staffUsers.findOne user.id = some user :=
      Table.findOne_of_mem (List.mem_of_find?_eq_some huser)
    simp only [Option.mem_some_iff, forall_eq']
    cases haccepts : AuthService.accepts c user with
    | false => simpa using hkept
    | true =>
      simp only [Bool.true_eq_false, if_false, true_implies]
      by_cases hchanged : user.name ≠ c.name.getD user.name ∨ user.email ≠ c.email.getD user.email
      · rw [if_pos hchanged]
        have hdiffers : c.profile user ≠ user.profile := by
          intro h
          obtain ⟨hname, hemail⟩ := Profile.mk.inj h
          rcases hchanged with hne | hne
          · exact hne hname.symm
          · exact hne hemail.symm
        dsimp only [AuthService.answerChanged]
        cases hsave : body env.statement [(AuthService.refreshed c user).user.save] s.db with
        | none => simpa using hkept
        | some db =>
          have hafter := (StaffEntity.findOne_save (body_one hsave) hfind user.id).trans (if_pos rfl)
          refine iff_of_false (fun h => hdiffers ?_) fun h => hdiffers (h rfl)
          have hwritten := kept_iff.mp hkept user.id user hfind
          have hstored := kept_iff.mp h user.id _ hafter
          exact (Option.some.inj (hwritten.symm.trans hstored)).symm
      · rw [if_neg hchanged]
        push Not at hchanged
        exact iff_of_true hkept fun _ => (Profile.mk.injEq ..).mpr ⟨hchanged.1.symm, hchanged.2.symm⟩

theorem step_kept_iff (a : Action) (hkept : Kept s) : Kept (step cfg s a) ↔ CarriesProfile cfg s a := by
  cases a with
  | tick d => exact iff_of_true hkept trivial
  | login email password =>
    refine iff_of_true ?_ trivial
    simp only [step]
    split <;> exact hkept
  | administer env id admin r =>
    refine iff_of_true ?_ trivial
    simp only [step, administer]
    split
    · exact hkept
    · rename_i w hload
      split
      · exact hkept
      · rename_i db hcommit
        exact administer_kept hkept hload hcommit
  | authenticate env id token =>
    simp only [step, CarriesProfile]
    cases hclaims : s.claims cfg token with
    | none => simpa using hkept
    | some c =>
      obtain ⟨hlocal, hsub⟩ := claims_local hclaims
      simpa using upsert_kept_iff hkept hlocal hsub

/-- Names and addresses stay as an administrator last wrote them exactly when no token that carries
others gets through to its row. -/
theorem always_kept_iff_carriesProfile (cfg : AuthConfig) (db : Db) (clock : Time) (as : List Action) :
    Always (step cfg) Kept (start db clock) as ↔ EveryStep (step cfg) (CarriesProfile cfg) (start db clock) as :=
  always_iff_everyStep (I := fun _ => True) (fun _ _ h => h) (fun _ a _ h => step_kept_iff a h) trivial
    (start_kept db clock) as

def renamedAfterLogin : List Action :=
  [.administer { now := 0 } "priya" Sample.rootStaff (.createStaff ⟨"Priya", "priya@cimp"⟩ "hash of secret"),
    .login "priya@cimp" "secret",
    .administer { now := 0 } "-" Sample.rootStaff (.updateStaff "priya" ⟨some "Priya N.", none, none⟩),
    .authenticate { now := 0 } "-" 0]

theorem rename_reverted :
    ¬ ∀ (cfg : AuthConfig) (db : Db) (clock : Time) (as : List Action),
      Always (step cfg) Kept (start db clock) as := by
  intro h
  have hfinal := (h Sample.authConfig Sample.staffed 0 renamedAfterLogin).final
  revert hfinal
  decide

end Profiles

end Cimp
