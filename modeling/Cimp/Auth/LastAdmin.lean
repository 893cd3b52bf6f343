import Cimp.Auth.Grants
import Cimp.Auth.Sessions

namespace Cimp

open Execution Transaction

def IsActive (db : Db) (id : Uuid) : Prop := ∃ u ∈ db.staffUsers.findOne id, u.status = .active

def Administers (db : Db) (g : UserPlatformRole) : Prop := g.role = .admin ∧ IsActive db g.staffUser

def HasAdmin (db : Db) : Prop := ∃ g ∈ db.roles, Administers db g

instance decidableIsActive (db : Db) (id : Uuid) : Decidable (IsActive db id) :=
  inferInstanceAs (Decidable (∃ u ∈ db.staffUsers.findOne id, u.status = .active))

instance decidableAdministers (db : Db) (g : UserPlatformRole) : Decidable (Administers db g) :=
  instDecidableAnd

instance decidableHasAdmin (db : Db) : Decidable (HasAdmin db) :=
  List.decidableBEx _ _

/-- The grants a write leaves standing, with their holders as active as they were. -/
def AdminWrite.Spares (g : UserPlatformRole) : AdminWrite → Prop
  | .staff (.update u _) => u.user.id = g.staffUser → u.user.status = .active
  | .staff (.remove user _) => user.id ≠ g.staffUser
  | .revoke h _ => g.id ≠ h.id
  | .removePlatform p _ => g.platform ≠ some p.id
  | _ => True

variable {env : Env} {id : Uuid} {db db' : Db} {g : UserPlatformRole} {w : AdminWrite}

theorem isActive_iff_holders {i : Uuid} : IsActive db i ↔ ∃ h ∈ Accounts.holders db i, h.live = true := by
  simp [IsActive, Accounts.holders, Accounts.holder]

theorem isActive_congr (h : db'.staffUsers = db.staffUsers) {i : Uuid} : IsActive db' i ↔ IsActive db i := by
  unfold IsActive
  rw [h]

theorem isActive_of_puts {h : Credentials.Holder String} {i j : Uuid} (hputs : Accounts.Puts db db' i h) :
    IsActive db' j ↔ if j = i then h.live = true else IsActive db j := by
  rw [isActive_iff_holders, hputs.find]
  split
  · simp
  · exact isActive_iff_holders.symm

theorem keeps_roles_insert (row : StaffUser) : Keeps Db.roles row.insert := by
  intro s t h
  unfold StaffUser.insert at h
  split at h
  · cases h
  · obtain ⟨_, _, rfl⟩ := Option.map_eq_some_iff.mp h
    rfl

theorem keeps_roles_save (e : StaffEntity) : Keeps Db.roles e.save := by
  intro s t h
  unfold StaffEntity.save at h
  split at h
  · exact keeps_roles_insert _ s t h
  · split at h
    · cases h
    · cases h
      rfl

theorem hasAdmin_of_audited {fails : ℕ → Bool} {q : Statement Db} {now : Time} {a : AuditInput}
    (h : body fails [q, AuditService.record now a] db = some db') : ∃ m, q db = some m ∧ (HasAdmin db' ↔ HasAdmin m) := by
  obtain ⟨m, hm, rfl⟩ := AuditService.of_audited h
  exact ⟨m, hm, Iff.rfl⟩

theorem standing_update {u : StaffUpdate} {audit : AuditInput} {m : Db} (hm : u.user.save db = some m)
    (hlive : u.user.status ≠ .active) :
    g ∈ m.roles ∧ Administers m g ↔
      g ∈ db.roles ∧ Administers db g ∧ (AdminWrite.staff (.update u audit)).Spares g := by
  have hactive : IsActive m g.staffUser ↔ IsActive db g.staffUser ∧ u.user.id ≠ g.staffUser := by
    rw [isActive_of_puts (Accounts.puts_of_save hm)]
    split
    · rename_i hheld
      exact iff_of_false (fun h => hlive (of_decide_eq_true h)) fun h => h.2 hheld.symm
    · rename_i hother
      exact ⟨fun h => ⟨h, fun hheld => hother hheld.symm⟩, fun h => h.1⟩
  have hspared : (AdminWrite.staff (.update u audit)).Spares g ↔ u.user.id ≠ g.staffUser :=
    ⟨fun h hheld => hlive (h hheld), fun h hheld => absurd hheld h⟩
  rw [keeps_roles_save _ _ _ hm, hspared, Administers, Administers, hactive, and_assoc]

theorem standing_remove {user : StaffUser} {audit : AuditInput} {m : Db} (hm : StaffUser.remove user.id db = some m) :
    g ∈ m.roles ∧ Administers m g ↔
      g ∈ db.roles ∧ Administers db g ∧ (AdminWrite.staff (.remove user audit)).Spares g := by
  have hactive : IsActive m g.staffUser ↔ IsActive db g.staffUser ∧ user.id ≠ g.staffUser := by
    rw [isActive_iff_holders, Accounts.remove_find hm, isActive_iff_holders]
    split
    · rename_i hheld
      simp [hheld]
    · rename_i hother
      exact ⟨fun h => ⟨h, fun hheld => hother hheld.symm⟩, fun h => h.1⟩
  have hroles : g ∈ m.roles ↔ g ∈ db.roles ∧ user.id ≠ g.staffUser := by
    cases hm
    simp only [List.mem_filter, decide_eq_true_iff, ne_comm]
  simp only [hroles, Administers, hactive, AdminWrite.Spares]
  constructor
  · rintro ⟨⟨hg, hother⟩, hrole, hbefore, _⟩
    exact ⟨hg, ⟨hrole, hbefore⟩, hother⟩
  · rintro ⟨hg, ⟨hrole, hbefore⟩, hother⟩
    exact ⟨⟨hg, hother⟩, hrole, hbefore, hother⟩

theorem standing_filter {p : UserPlatformRole → Bool} (hstaff : db'.staffUsers = db.staffUsers)
    (hroles : db'.roles = db.roles.filter p) :
    g ∈ db'.roles ∧ Administers db' g ↔ g ∈ db.roles ∧ Administers db g ∧ p g = true := by
  rw [hroles, List.mem_filter, Administers, isActive_congr hstaff, ← Administers]
  constructor
  · rintro ⟨⟨hg, hp⟩, hadministers⟩
    exact ⟨hg, hadministers, hp⟩
  · rintro ⟨hg, hadministers, hp⟩
    exact ⟨⟨hg, hp⟩, hadministers⟩

theorem hasAdmin_commit (hcommit : w.commit env id db = some db') (hadmin : HasAdmin db) :
    HasAdmin db' ↔ ∃ g ∈ db.roles, Administers db g ∧ w.Spares g := by
  cases w with
  | staff w =>
    cases w with
    | create user audit =>
      obtain ⟨m, hm, hafter⟩ := hasAdmin_of_audited hcommit
      rw [hafter]
      obtain ⟨g, hg, hrole, hactive⟩ := hadmin
      refine iff_of_true ⟨g, ?_, hrole, ?_⟩ ⟨g, hg, ⟨hrole, hactive⟩, trivial⟩
      · rw [← keeps_roles_insert _ _ _ hm] at hg
        exact hg
      · apply (isActive_of_puts (Accounts.puts_of_insert hm)).mpr
        split
        · rfl
        · exact hactive
    | update u audit =>
      obtain ⟨m, hm, hafter⟩ := hasAdmin_of_audited hcommit
      rw [hafter]
      by_cases hlive : u.user.status = .active
      · obtain ⟨g, hg, hrole, hactive⟩ := hadmin
        refine iff_of_true ⟨g, ?_, hrole, ?_⟩ ⟨g, hg, ⟨hrole, hactive⟩, fun _ => hlive⟩
        · rw [← keeps_roles_save _ _ _ hm] at hg
          exact hg
        · apply (isActive_of_puts (Accounts.puts_of_save hm)).mpr
          split
          · exact decide_eq_true hlive
          · exact hactive
      · exact exists_congr fun g => standing_update hm hlive
    | remove user audit =>
      obtain ⟨m, hm, hafter⟩ := hasAdmin_of_audited hcommit
      rw [hafter]
      exact exists_congr fun g => standing_remove hm
  | grant staffUser role platform audit =>
    obtain ⟨m, hm, hafter⟩ := hasAdmin_of_audited hcommit
    rw [hafter]
    cases grant_inserted hm
    obtain ⟨g, hg, hrole, hactive⟩ := hadmin
    exact iff_of_true ⟨g, List.mem_append_left _ hg, hrole, hactive⟩ ⟨g, hg, ⟨hrole, hactive⟩, trivial⟩
  | revoke h audit =>
    obtain ⟨m, hm, hafter⟩ := hasAdmin_of_audited hcommit
    rw [hafter]
    obtain ⟨hstaff, hroles⟩ := grant_removed hm
    apply exists_congr
    intro g
    rw [standing_filter hstaff hroles, decide_eq_true_iff]
    exact Iff.rfl
  | removePlatform p audit =>
    obtain ⟨m, hm, hafter⟩ := hasAdmin_of_audited hcommit
    rw [hafter]
    obtain ⟨hstaff, hroles⟩ := platform_removed hm
    apply exists_congr
    intro g
    rw [standing_filter hstaff hroles, decide_eq_true_iff]
    exact Iff.rfl

/-- The guard of the request, put once more to the rows as they are now. -/
def AdminWrite.PassesAgain (db : Db) : AdminWrite → Prop
  | .staff (.update u _) =>
    u.user.status = .disabled → AdminService.assertNotLastAdmin db u.user.id "disable" = .ok ()
  | .staff (.remove user _) => AdminService.assertNotLastAdmin db user.id "delete" = .ok ()
  | .revoke h _ => ∀ g ∈ db.roles, g.id = h.id → g.role = .admin → (db.staffUsers.findOne g.staffUser).isSome = true →
      AdminService.assertNotLastAdmin db g.staffUser "revoke ADMIN from" = .ok ()
  -- `deletePlatform` has no guard, for ADMIN grants are global
  | .removePlatform p _ => ∀ g ∈ db.roles, g.role = .admin → g.platform ≠ some p.id
  | _ => True

instance decidablePassesAgain (db : Db) : (w : AdminWrite) → Decidable (w.PassesAgain db)
  | .staff (.create _ _) | .grant _ _ _ _ => isTrue trivial
  | .staff (.update u _) =>
    inferInstanceAs (Decidable (u.user.status = .disabled → AdminService.assertNotLastAdmin db u.user.id "disable" = .ok ()))
  | .staff (.remove user _) => inferInstanceAs (Decidable (AdminService.assertNotLastAdmin db user.id "delete" = .ok ()))
  | .revoke h _ => inferInstanceAs (Decidable (∀ g ∈ db.roles, g.id = h.id → g.role = .admin →
      (db.staffUsers.findOne g.staffUser).isSome = true →
        AdminService.assertNotLastAdmin db g.staffUser "revoke ADMIN from" = .ok ()))
  | .removePlatform p _ =>
    inferInstanceAs (Decidable (∀ g ∈ db.roles, g.role = .admin → g.platform ≠ some p.id))

theorem AdminWrite.nodup_commit (hcommit : w.commit env id db = some db') (hids : (db.roles.map UserPlatformRole.id).Nodup) :
    (db'.roles.map UserPlatformRole.id).Nodup := by
  cases w with
  | staff w =>
    cases w with
    | create user audit =>
      obtain ⟨m, hm, rfl⟩ := AuditService.of_audited hcommit
      exact keeps_roles_insert _ _ _ hm ▸ hids
    | update u audit =>
      obtain ⟨m, hm, rfl⟩ := AuditService.of_audited hcommit
      exact keeps_roles_save _ _ _ hm ▸ hids
    | remove user audit =>
      obtain ⟨m, hm, rfl⟩ := AuditService.of_audited hcommit
      cases hm
      exact hids.sublist (List.filter_sublist.map _)
  | grant staffUser role platform audit =>
    obtain ⟨m, hm, rfl⟩ := AuditService.of_audited hcommit
    have hnew : ∀ g ∈ db.roles, g.id ≠ id := grant_fresh hm
    cases grant_inserted hm
    have hlast : id ∉ db.roles.map UserPlatformRole.id := by
      rintro hmem
      obtain ⟨g, hg, hid⟩ := List.mem_map.mp hmem
      exact hnew g hg hid
    rw [List.map_append]
    exact hids.append (List.nodup_singleton id) (List.disjoint_singleton.mpr hlast)
  | revoke h audit =>
    obtain ⟨m, hm, rfl⟩ := AuditService.of_audited hcommit
    rw [(grant_removed hm).2]
    exact hids.sublist (List.filter_sublist.map _)
  | removePlatform p audit =>
    obtain ⟨m, hm, rfl⟩ := AuditService.of_audited hcommit
    rw [(platform_removed hm).2]
    exact hids.sublist (List.filter_sublist.map _)

namespace AdminService

variable {cfg : AuthConfig} {admin : AuthenticatedStaff}

theorem assertNotLastAdmin_iff {staffUserId : Uuid} {action : String} :
    assertNotLastAdmin db staffUserId action = .ok () ↔
      ∃ g ∈ db.roles, Administers db g ∧ g.staffUser ≠ staffUserId := by
  constructor
  · intro h
    obtain ⟨g, hg, hother⟩ := List.any_eq_true.mp (require_ok h)
    simp only [Bool.and_eq_true, decide_eq_true_eq, Option.any_eq_true] at hother
    obtain ⟨⟨hrole, hne⟩, user, huser, hstatus⟩ := hother
    exact ⟨g, hg, ⟨hrole, user, huser, hstatus⟩, hne⟩
  · rintro ⟨g, hg, ⟨hrole, user, huser, hstatus⟩, hne⟩
    have hfind : db.staffUsers.findOne g.staffUser = some user := huser
    exact if_pos (List.any_eq_true.mpr ⟨g, hg, by simp [hrole, hne, hfind, hstatus]⟩)

theorem status_of_isActive {user : StaffUser} {i : Uuid} (hactive : IsActive db i)
    (hfind : db.staffUsers.findOne i = some user) : user.status = .active := by
  obtain ⟨u, hu, hstatus⟩ := hactive
  rw [hfind] at hu
  cases hu
  exact hstatus

theorem spares_of_passesAgain (hadmin : HasAdmin db) (hids : (db.roles.map UserPlatformRole.id).Nodup)
    (h : w.PassesAgain db) : ∃ g ∈ db.roles, Administers db g ∧ w.Spares g := by
  obtain ⟨g, hg, hadministers⟩ := hadmin
  cases w with
  | staff w =>
    cases w with
    | create user audit => exact ⟨g, hg, hadministers, trivial⟩
    | update u audit =>
      cases hstatus : u.user.status with
      | active => exact ⟨g, hg, hadministers, fun _ => hstatus⟩
      | disabled =>
        obtain ⟨g, hg, hadministers, hother⟩ := assertNotLastAdmin_iff.mp (h hstatus)
        exact ⟨g, hg, hadministers, fun hheld => absurd hheld.symm hother⟩
    | remove user audit =>
      obtain ⟨g, hg, hadministers, hother⟩ := assertNotLastAdmin_iff.mp h
      exact ⟨g, hg, hadministers, hother.symm⟩
  | grant staffUser role platform audit => exact ⟨g, hg, hadministers, trivial⟩
  | revoke revoked audit =>
    by_cases hid : g.id = revoked.id
    · obtain ⟨hrole, user, huser, _⟩ := hadministers
      have hholder : (db.staffUsers.findOne g.staffUser).isSome = true := Option.isSome_iff_exists.mpr ⟨user, huser⟩
      obtain ⟨g', hg', hadministers', hother⟩ := assertNotLastAdmin_iff.mp (h g hg hid hrole hholder)
      refine ⟨g', hg', hadministers', fun hid' => hother ?_⟩
      rw [List.inj_on_of_nodup_map hids hg' hg (hid'.trans hid.symm)]
    · exact ⟨g, hg, hadministers, hid⟩
  | removePlatform p audit => exact ⟨g, hg, hadministers, h g hg hadministers.1⟩

/-- For a save and a removal of an account the guard asks for no more than the claim does. -/
theorem passesAgain_of_spares {v : StaffWrite}
    (h : ∃ g ∈ db.roles, Administers db g ∧ (AdminWrite.staff v).Spares g) : (AdminWrite.staff v).PassesAgain db := by
  obtain ⟨g, hg, hadministers, hspares⟩ := h
  cases v with
  | create user audit => trivial
  | update u audit =>
    intro hdisabled
    refine assertNotLastAdmin_iff.mpr ⟨g, hg, hadministers, fun hheld => ?_⟩
    have hactive : u.user.status = .active := hspares hheld.symm
    rw [hdisabled] at hactive
    cases hactive
  | remove user audit => exact assertNotLastAdmin_iff.mpr ⟨g, hg, hadministers, fun hheld => hspares hheld.symm⟩

theorem passesAgain_of_save {u : StaffUpdate} {audit : AuditInput} {user : StaffUser} (hadmin : HasAdmin db)
    (hfind : db.staffUsers.findOne u.user.id = some user) (hkept : user.status = .active → u.user.status = .active) :
    (AdminWrite.staff (.update u audit)).PassesAgain db := by
  apply passesAgain_of_spares
  obtain ⟨g, hg, hrole, hactive⟩ := hadmin
  refine ⟨g, hg, ⟨hrole, hactive⟩, fun hheld => hkept ?_⟩
  exact status_of_isActive hactive (hheld ▸ hfind)

theorem passesAgain_of_updateStaff {i : Uuid} {dto : UpdateStaffDto} {v : StaffWrite}
    (h : updateStaff cfg db admin i dto = .ok v) (hadmin : HasAdmin db) : (AdminWrite.staff v).PassesAgain db := by
  obtain ⟨user, audit, huser, rfl, hguard⟩ := updateStaff_ok h
  have hid : (updated cfg dto user).user.id = i := (updated cfg dto user).id_eq.trans (Table.findOne_key huser)
  by_cases hdisables : dto.status = some .disabled ∧ user.status ≠ .disabled
  · intro _
    have hassert := (hguard hdisables.1 hdisables.2).2
    rwa [Table.findOne_key huser, ← hid] at hassert
  · exact passesAgain_of_save hadmin (hid ▸ huser) (updated_status hdisables)

/-- A request whose check and commit nothing comes between. -/
theorem passesAgain_of_check {r : AdminRequest} (h : prepare cfg db admin r = .ok w) (hadmin : HasAdmin db)
    (hids : (db.roles.map UserPlatformRole.id).Nodup)
    (hglobal : ∀ g ∈ db.roles, g.role = .admin → g.platform = none) : w.PassesAgain db := by
  cases r with
  | staff r =>
    obtain ⟨v, hv, rfl⟩ := staff_ok h
    cases r with
    | createStaff dto passwordHash =>
      obtain ⟨_, audit, rfl⟩ := createStaff_ok hv
      trivial
    | updateStaff i dto => exact passesAgain_of_updateStaff hv hadmin
    | setStaffPassword i passwordHash =>
      obtain ⟨user, audit, huser, rfl⟩ := setStaffPassword_ok hv
      have hfind : db.staffUsers.findOne (reset passwordHash user).user.id = some user := by
        rwa [← Table.findOne_key huser] at huser
      exact passesAgain_of_save hadmin hfind fun hactive => hactive
    | deleteStaff i =>
      obtain ⟨user, audit, _, rfl, _, hassert⟩ := deleteStaff_ok hv
      exact hassert
  | assignRole dto =>
    obtain ⟨audit, rfl⟩ := assignRole_ok h
    trivial
  | revokeRole roleId =>
    obtain ⟨grant, hmem, audit, rfl, hguard⟩ := revokeRole_ok h
    intro g hg hid
    rw [List.inj_on_of_nodup_map hids hg hmem hid]
    exact hguard
  | deletePlatform i =>
    obtain ⟨platform, audit, _, rfl⟩ := deletePlatform_ok h
    intro g hg hrole
    rw [hglobal g hg hrole]
    exact nofun

theorem run_hasAdmin (cfg : AuthConfig) (env : Env) (id : Uuid) (admin : AuthenticatedStaff) (r : AdminRequest)
    (db : Db) (hadmin : HasAdmin db) (hids : (db.roles.map UserPlatformRole.id).Nodup)
    (hglobal : ∀ g ∈ db.roles, g.role = .admin → g.platform = none) : HasAdmin (run cfg env id admin r db) := by
  obtain hsame | ⟨w, hw, hcommit⟩ := run_cases cfg env id admin r db
  · rw [hsame]
    exact hadmin
  · have hpasses := passesAgain_of_check hw hadmin hids hglobal
    exact (hasAdmin_commit hcommit hadmin).mpr (spares_of_passesAgain hadmin hids hpasses)

end AdminService

structure Administration where
  db : Db
  inFlight : ℕ → Option AdminWrite

namespace Administration

inductive Action
  | check (slot : ℕ) (admin : AuthenticatedStaff) (r : AdminRequest)
  | commit (slot : ℕ) (env : Env) (id : Uuid)

def start (db : Db) : Administration := ⟨db, fun _ => none⟩

def hold (s : Administration) (slot : ℕ) (w : Option AdminWrite) : Administration :=
  { s with inFlight := Function.update s.inFlight slot w }

def step (cfg : AuthConfig) (s : Administration) : Action → Administration
  | .check slot admin r =>
    match AdminService.prepare cfg s.db admin r with
    | .error _ => s
    | .ok w => s.hold slot (some w)
  | .commit slot env id =>
    match s.inFlight slot with
    | none => s
    | some w => { s.hold slot none with db := (w.commit env id s.db).getD s.db }

/-- Where a commit goes through, the guard of its request would still let it. -/
def PassesAgain (s : Administration) : Action → Prop
  | .check _ _ _ => True
  | .commit slot env id => ∀ w ∈ s.inFlight slot, (w.commit env id s.db).isSome = true → w.PassesAgain s.db

/-- The same, of the saves and removals of accounts alone. -/
def AccountsPassAgain (s : Administration) : Action → Prop
  | .check _ _ _ => True
  | .commit slot env id =>
    ∀ v, s.inFlight slot = some (.staff v) → ((AdminWrite.staff v).commit env id s.db).isSome = true →
      (AdminWrite.staff v).PassesAgain s.db

instance decidablePassesAgain (s : Administration) : (a : Action) → Decidable (PassesAgain s a)
  | .check _ _ _ => isTrue trivial
  | .commit slot env id =>
    inferInstanceAs (Decidable (∀ w ∈ s.inFlight slot, (w.commit env id s.db).isSome = true → w.PassesAgain s.db))

variable {cfg : AuthConfig} {s : Administration}

theorem step_cases (cfg : AuthConfig) (s : Administration) (a : Action) :
    (step cfg s a).db = s.db ∨ ∃ slot env id w, a = .commit slot env id ∧ s.inFlight slot = some w ∧
      w.commit env id s.db = some (step cfg s a).db := by
  cases a with
  | check slot admin r =>
    refine .inl ?_
    simp only [step]
    split <;> rfl
  | commit slot env id =>
    cases hw : s.inFlight slot with
    | none => exact .inl (by simp only [step, hw])
    | some w =>
      cases hcommit : w.commit env id s.db with
      | none => exact .inl (by simp [step, hw, hcommit])
      | some db' => exact .inr ⟨slot, env, id, w, rfl, hw, by simp [step, hw, hcommit]⟩

theorem step_nodup (a : Action) (hids : (s.db.roles.map UserPlatformRole.id).Nodup) :
    ((step cfg s a).db.roles.map UserPlatformRole.id).Nodup := by
  obtain hsame | ⟨_, _, _, _, _, _, hcommit⟩ := step_cases cfg s a
  · rwa [hsame]
  · exact AdminWrite.nodup_commit hcommit hids

theorem step_hasAdmin (a : Action) (hids : (s.db.roles.map UserPlatformRole.id).Nodup) (hadmin : HasAdmin s.db)
    (hpasses : PassesAgain s a) : HasAdmin (step cfg s a).db := by
  obtain hsame | ⟨slot, env, id, w, rfl, hw, hcommit⟩ := step_cases cfg s a
  · rwa [hsame]
  · have hagain := hpasses w hw (Option.isSome_iff_exists.mpr ⟨_, hcommit⟩)
    exact (hasAdmin_commit hcommit hadmin).mpr (AdminService.spares_of_passesAgain hadmin hids hagain)

theorem accountsPassAgain_of_step (a : Action) (hadmin : HasAdmin s.db) (hnext : HasAdmin (step cfg s a).db) :
    AccountsPassAgain s a := by
  cases a with
  | check slot admin r => trivial
  | commit slot env id =>
    intro v hv hsome
    obtain ⟨db', hcommit⟩ := Option.isSome_iff_exists.mp hsome
    have hdb : (step cfg s (.commit slot env id)).db = db' := by simp [step, hv, hcommit]
    rw [hdb] at hnext
    exact AdminService.passesAgain_of_spares ((hasAdmin_commit hcommit hadmin).mp hnext)

/-- A run in which every commit still passes the guard of its request keeps an administrator; and for the saves and
removals of accounts there is no other way. -/
theorem always_hasAdmin_of_passesAgain (cfg : AuthConfig) (db : Db) (as : List Action) (hadmin : HasAdmin db)
    (hids : (db.roles.map UserPlatformRole.id).Nodup) :
    (EveryStep (step cfg) PassesAgain (start db) as → Always (step cfg) (fun s => HasAdmin s.db) (start db) as) ∧
    (Always (step cfg) (fun s => HasAdmin s.db) (start db) as →
      EveryStep (step cfg) AccountsPassAgain (start db) as) := by
  constructor
  · intro hsteps
    have hboth := always_of_everyStep
      (I := fun s : Administration => HasAdmin s.db ∧ (s.db.roles.map UserPlatformRole.id).Nodup)
      (fun s a hs hpasses => ⟨step_hasAdmin a hs.2 hs.1 hpasses, step_nodup a hs.2⟩) ⟨hadmin, hids⟩ hsteps
    exact hboth.mono fun s hs => hs.1
  · intro halways
    exact Always.everyStep (P := fun s : Administration => HasAdmin s.db)
      (fun s a hs hnext => accountsPassAgain_of_step a hs hnext) halways

end Administration

namespace Sample

def second : StaffUser := ⟨"second", "local:second@cimp", "Second", "second@cimp", some "hash of second", .active, 1⟩

def twoAdmins : Db :=
  { Db.empty with
    staffUsers := ⟨[root, second], by decide⟩
    roles := [⟨"root-admin", "root", none, .admin⟩, ⟨"second-admin", "second", none, .admin⟩] }

def secondStaff : AuthenticatedStaff :=
  ⟨"second", "local:second@cimp", "Second", "second@cimp", [⟨.admin, none⟩]⟩

def disable (id : Uuid) : AdminRequest := .staff (.updateStaff id ⟨none, none, some .disabled⟩)

end Sample

namespace Administration

def disableInTurn : List Action :=
  [.check 0 Sample.rootStaff (Sample.disable "second"), .commit 0 { now := 0 } "-",
    .check 0 Sample.secondStaff (Sample.disable "root"), .commit 0 { now := 0 } "-"]

theorem always_hasAdmin_of_passesAgain_inTurn :
    Always (step Sample.authConfig) (fun s => HasAdmin s.db) (start Sample.twoAdmins) disableInTurn :=
  (always_hasAdmin_of_passesAgain Sample.authConfig Sample.twoAdmins disableInTurn (by decide) (by decide)).1 (by decide)

def disableEachOther : List Action :=
  [.check 0 Sample.rootStaff (Sample.disable "second"), .check 1 Sample.secondStaff (Sample.disable "root"),
    .commit 0 { now := 0 } "-", .commit 1 { now := 0 } "-"]

theorem last_admin_disabled :
    ¬ ∀ (cfg : AuthConfig) (db : Db) (as : List Action), HasAdmin db →
      Always (step cfg) (fun s => HasAdmin s.db) (start db) as := by
  intro h
  have hfinal := (h Sample.authConfig Sample.twoAdmins disableEachOther (by decide)).final
  revert hfinal
  decide

end Administration

end Cimp
