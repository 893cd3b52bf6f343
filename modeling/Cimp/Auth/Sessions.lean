import Cimp.Auth.Admin
import Cimp.Lib.Credentials
import Cimp.Lib.Execution
import Mathlib.Logic.Function.Basic

namespace Cimp

open Credentials Execution Transaction

/-- A token in circulation: the staff row as the login read it, and whether a revocation of that row
has been committed since. -/
structure Session where
  user : StaffUser
  signedAt : Time
  revoked : Bool
deriving DecidableEq, Repr

namespace Session

def token (cfg : AuthConfig) (t : Session) : JwtPayload := LocalAuthService.sign cfg t.signedAt t.user

def fresh (cfg : AuthConfig) (now : Time) (t : Session) : Bool := now / 1000 < (t.token cfg).exp

def credential (t : Session) : Credential Uuid String :=
  ⟨t.user.id, t.user.idpSubject, t.user.tokenVersion, t.revoked⟩

def revokeAt (i : Option Uuid) (t : Session) : Session :=
  if i = some t.user.id then { t with revoked := true } else t

end Session

structure Answer where
  session : Session
  principal : Option AuthenticatedStaff
deriving DecidableEq, Repr

def Answer.Rightful (a : Answer) : Prop :=
  ∀ p ∈ a.principal, p.id = a.session.user.id ∧ a.session.revoked = false

inductive Pending
  | write (w : StaffWrite)
  | refresh (session : Session) (u : StaffUpdate)
  | provision (session : Session) (claims : TokenClaims)

structure Accounts where
  db : Db
  clock : Time
  sessions : List Session
  inFlight : ℕ → Option Pending
  answers : List Answer

namespace Accounts

/-- A login reads the staff table once and what follows touches no state, so the token counts from
that read on. Only tokens that were signed are ever verified. -/
inductive Action
  | tick (d : ℕ)
  | login (email password : String)
  | request (slot : ℕ) (admin : AuthenticatedStaff) (r : StaffRequest)
  | verifyToken (slot : ℕ) (env : Env) (token : ℕ)
  | save (slot : ℕ) (env : Env) (id : Uuid)

def live (cfg : AuthConfig) (s : Accounts) : List Session := s.sessions.filter (Session.fresh cfg s.clock)

def start (db : Db) (clock : Time) : Accounts := ⟨db, clock, [], fun _ => none, []⟩

def answer (s : Accounts) (session : Session) (principal : Option AuthenticatedStaff) : Accounts :=
  { s with answers := s.answers ++ [⟨session, principal⟩] }

def hold (s : Accounts) (slot : ℕ) (p : Option Pending) : Accounts :=
  { s with inFlight := Function.update s.inFlight slot p }

def login (cfg : AuthConfig) (s : Accounts) (email password : String) : Accounts :=
  match LocalAuthService.login cfg s.db email password with
  | .error _ => s
  | .ok user => { s with sessions := s.sessions ++ [⟨user, s.clock, false⟩] }

def request (cfg : AuthConfig) (s : Accounts) (slot : ℕ) (admin : AuthenticatedStaff) (r : StaffRequest) :
    Accounts :=
  match AdminService.load cfg s.db admin r with
  | .error _ => s
  | .ok w => s.hold slot (some (.write w))

def verifyToken (cfg : AuthConfig) (s : Accounts) (slot : ℕ) (env : Env) (token : ℕ) : Accounts :=
  match s.sessions[token]? with
  | none => s
  | some session =>
    match LocalAuthService.sessionClaims cfg s.clock (session.token cfg) with
    | none => s.answer session none
    | some claims =>
      match AuthService.claimed s.db claims with
      | .refused => s.answer session none
      | .known user => s.answer session (AuthService.answerKnown env user s.db)
      | .changed u => s.hold slot (some (.refresh session u))
      | .firstContact => s.hold slot (some (.provision session claims))

def save (s : Accounts) (slot : ℕ) (env : Env) (id : Uuid) : Accounts :=
  match s.inFlight slot with
  | none => s
  | some (.write w) =>
    match w.commit env id s.db with
    | none => s.hold slot none
    | some db => { s.hold slot none with db, sessions := s.sessions.map (Session.revokeAt w.revokes) }
  | some (.refresh session u) =>
    let (db, principal) := AuthService.answerChanged env u s.db
    ({ s.hold slot none with db }).answer session principal
  | some (.provision session claims) =>
    let (db, principal) := AuthService.answerFirstContact env claims id s.db
    ({ s.hold slot none with db }).answer session principal

def step (cfg : AuthConfig) (s : Accounts) : Action → Accounts
  | .tick d => { s with clock := s.clock + d }
  | .login email password => s.login cfg email password
  | .request slot admin r => s.request cfg slot admin r
  | .verifyToken slot env token => s.verifyToken cfg slot env token
  | .save slot env id => s.save slot { env with now := s.clock } id

def holder (u : StaffUser) : Holder String := ⟨u.idpSubject, u.tokenVersion, u.status = .active⟩

def holders (db : Db) (i : Uuid) : Option (Holder String) := (db.staffUsers.findOne i).map holder

def External (sub : String) : Prop := isLocalSubject sub = false

theorem holders_some {db : Db} {i : Uuid} {h : Holder String} (hh : holders db i = some h) :
    ∃ u, db.staffUsers.findOne i = some u ∧ holder u = h := by
  simpa [holders, Option.map_eq_some_iff] using hh

theorem holders_congr {db db' : Db} (h : db'.staffUsers = db.staffUsers) : holders db' = holders db := by
  unfold holders
  rw [h]

/-- A save that puts `w` under the key `i`, beside rows of other subjects. -/
structure Puts (db db' : Db) (i : Uuid) (w : Holder String) : Prop where
  find : ∀ j, holders db' j = if j = i then some w else holders db j
  distinct : ∀ j h, holders db j = some h → j ≠ i → h.name ≠ w.name

theorem distinct_of_not_taken {db : Db} {row : StaffUser} (h : ¬ row.taken db = true) :
    ∀ j k, holders db j = some k → j ≠ row.id → k.name ≠ (holder row).name := by
  intro j k hj hne hname
  obtain ⟨u, hu, rfl⟩ := holders_some hj
  refine h (List.any_eq_true.mpr ⟨u, Table.mem_of_findOne hu, ?_⟩)
  have hid : u.id = j := Table.findOne_key hu
  simp only [holder] at hname
  simp [hid, hne, hname]

theorem puts_of_insert {db db' : Db} {row : StaffUser} (h : row.insert db = some db') :
    Puts db db' row.id (holder row) := by
  refine ⟨fun j => ?_, ?_⟩
  · rw [holders, StaffUser.findOne_insert h]
    split <;> rfl
  · unfold StaffUser.insert at h
    split at h
    · cases h
    · rename_i hfree
      exact distinct_of_not_taken hfree

theorem puts_of_save {db db' : Db} {e : StaffEntity} (h : e.save db = some db') :
    Puts db db' e.id (holder e.toRow) := by
  unfold StaffEntity.save at h
  split at h
  · exact puts_of_insert h
  · rename_i row hrow
    split at h
    · cases h
    · rename_i hfree
      cases h
      refine ⟨fun j => ?_, distinct_of_not_taken hfree⟩
      simp only [holders, Table.findOne_update _ _ _ e.assign_id]
      split
      · rename_i hj
        rw [hj, hrow]
        rfl
      · rfl

theorem remove_find {db db' : Db} {i : Uuid} (h : StaffUser.remove i db = some db') (j : Uuid) :
    holders db' j = if j = i then none else holders db j := by
  rw [holders, StaffUser.findOne_remove h]
  split <;> rfl

theorem staffUsers_of_audited {fails : ℕ → Bool} {q : Statement Db} {now : Time} {a : AuditInput} {db db' : Db}
    (h : body fails [q, AuditService.record now a] db = some db') :
    ∃ m, q db = some m ∧ db'.staffUsers = m.staffUsers := by
  obtain ⟨m, hm, rfl⟩ := AuditService.of_audited h
  exact ⟨m, hm, rfl⟩

end Accounts

namespace Pending

def target (id : Uuid) : Pending → Uuid
  | .write (.create _ _) => id
  | .write (.update u _) => u.user.id
  | .write (.remove user _) => user.id
  | .refresh _ u => u.user.id
  | .provision _ _ => id

def writes (id : Uuid) : Pending → Option StaffUser
  | .write (.create user _) => some (user.toRow id)
  | .write (.update u _) => some u.user.toRow
  | .write (.remove _ _) => none
  | .refresh _ u => some u.user.toRow
  | .provision _ claims => some ((AuthService.newStaff claims).toRow id)

def update : Pending → Option StaffUpdate
  | .write (.update u _) => some u
  | .refresh _ u => some u
  | _ => none

def commit (env : Env) (id : Uuid) : Pending → Statement Db
  | .write w => w.commit env id
  | .refresh _ u => body env.statement [u.user.save]
  | .provision _ claims => body env.statement [((AuthService.newStaff claims).toRow id).insert]

variable (cfg : AuthConfig)

/-- A row with a live token is still there and its token version has not moved on since it was loaded. -/
def Current (s : Accounts) (p : Pending) : Prop :=
  ∀ u ∈ p.update, (∃ t ∈ s.live cfg, t.user.id = u.loaded.id) →
    ∃ row ∈ s.db.staffUsers.findOne u.loaded.id, row.tokenVersion ≤ u.loaded.tokenVersion

def Unclaimed (s : Accounts) (id : Uuid) (p : Pending) : Prop :=
  ∀ row ∈ p.writes id, row.status = .active → ∀ t ∈ s.live cfg, t.user.id ≠ p.target id →
    ¬ (t.user.idpSubject = row.idpSubject ∧ t.user.tokenVersion = row.tokenVersion)

def KeepsExternal (s : Accounts) (id : Uuid) (p : Pending) : Prop :=
  ∀ row ∈ s.db.staffUsers.findOne (p.target id), isLocalSubject row.idpSubject = false →
    (∃ t ∈ s.live cfg, t.user.idpSubject = row.idpSubject) →
      (p.writes id).map StaffUser.idpSubject = some row.idpSubject

instance decidableCurrent (s : Accounts) (p : Pending) : Decidable (p.Current cfg s) :=
  inferInstanceAs (Decidable (∀ u ∈ p.update, (∃ t ∈ s.live cfg, t.user.id = u.loaded.id) →
    ∃ row ∈ s.db.staffUsers.findOne u.loaded.id, row.tokenVersion ≤ u.loaded.tokenVersion))

instance decidableUnclaimed (s : Accounts) (id : Uuid) (p : Pending) : Decidable (p.Unclaimed cfg s id) :=
  inferInstanceAs (Decidable (∀ row ∈ p.writes id, row.status = .active → ∀ t ∈ s.live cfg, t.user.id ≠ p.target id →
    ¬ (t.user.idpSubject = row.idpSubject ∧ t.user.tokenVersion = row.tokenVersion)))

instance decidableKeepsExternal (s : Accounts) (id : Uuid) (p : Pending) : Decidable (p.KeepsExternal cfg s id) :=
  inferInstanceAs (Decidable (∀ row ∈ s.db.staffUsers.findOne (p.target id), isLocalSubject row.idpSubject = false →
    (∃ t ∈ s.live cfg, t.user.idpSubject = row.idpSubject) →
      (p.writes id).map StaffUser.idpSubject = some row.idpSubject))

end Pending

namespace Accounts

def KeepsSessions (cfg : AuthConfig) (s : Accounts) : Action → Prop
  | .save slot env id => ∀ p ∈ s.inFlight slot, (p.commit { env with now := s.clock } id s.db).isSome = true →
      p.Current cfg s ∧ p.Unclaimed cfg s id ∧ p.KeepsExternal cfg s id
  | _ => True

instance decidableKeepsSessions (cfg : AuthConfig) (s : Accounts) : (a : Action) → Decidable (KeepsSessions cfg s a)
  | .tick _ | .login _ _ | .request _ _ _ | .verifyToken _ _ _ => isTrue trivial
  | .save slot env id =>
    have (p : Pending) : Decidable ((p.commit { env with now := s.clock } id s.db).isSome = true →
        p.Current cfg s ∧ p.Unclaimed cfg s id ∧ p.KeepsExternal cfg s id) := instDecidableForall
    inferInstanceAs (Decidable (∀ p ∈ s.inFlight slot, (p.commit { env with now := s.clock } id s.db).isSome = true →
      p.Current cfg s ∧ p.Unclaimed cfg s id ∧ p.KeepsExternal cfg s id))

def DistinctIds (s : Accounts) : Action → Prop
  | .save _ _ id => ∀ t ∈ s.sessions, t.user.id ≠ id
  | _ => True

instance decidableDistinctIds (s : Accounts) : (a : Action) → Decidable (DistinctIds s a)
  | .tick _ | .login _ _ | .request _ _ _ | .verifyToken _ _ _ => isTrue trivial
  | .save _ _ id => inferInstanceAs (Decidable (∀ t ∈ s.sessions, t.user.id ≠ id))

def credentials (cfg : AuthConfig) (s : Accounts) : List (Credential Uuid String) :=
  (s.live cfg).map Session.credential

structure Inv (cfg : AuthConfig) (s : Accounts) : Prop where
  guarded : Guarded External (holders s.db) (s.credentials cfg)
  refreshing : ∀ slot session u, s.inFlight slot = some (.refresh session u) →
    u.user.id = session.user.id ∧ session.revoked = false
  known : ∀ slot session claims, s.inFlight slot ≠ some (.provision session claims)
  answers : ∀ a ∈ s.answers, a.Rightful

variable {cfg : AuthConfig} {s : Accounts} {p : Pending} {slot : ℕ} {env : Env} {id : Uuid} {db : Db}

theorem mem_credentials {t : Session} (ht : t ∈ s.live cfg) : t.credential ∈ s.credentials cfg :=
  List.mem_map_of_mem ht

theorem revokeAt_credential (i : Option Uuid) (t : Session) :
    (t.revokeAt i).credential = t.credential.revokeAt i := by
  unfold Session.revokeAt Credential.revokeAt Session.credential
  split <;> rfl

theorem behind_of_current {u : StaffUpdate} (hg : Guarded External (holders s.db) (s.credentials cfg))
    (hcurrent : p.Current cfg s) (hu : p.update = some u) {c : Credential Uuid String} (hc : c ∈ s.credentials cfg)
    (hid : c.holder = u.user.id) :
    c.version ≤ u.loaded.tokenVersion ∧ (c.revoked = true → c.version < u.loaded.tokenVersion) := by
  obtain ⟨t, ht, rfl⟩ := List.mem_map.mp hc
  obtain ⟨row, hrow, hle⟩ := hcurrent u hu ⟨t, ht, hid.trans u.id_eq⟩
  have hfind : holders s.db t.credential.holder = some (holder row) := by
    simp only [holders, hid, u.id_eq, Option.mem_def.mp hrow, Option.map_some]
  obtain ⟨hversion, hrevoked⟩ := hg.behind _ hc _ hfind
  simp only [holder] at hversion hrevoked
  exact ⟨hversion.trans hle, fun h => (hrevoked h).trans_le hle⟩

theorem guarded_of_puts {row : StaffUser} (hg : Guarded External (holders s.db) (s.credentials cfg))
    (hputs : Puts s.db db (p.target id) (holder row)) (hwrites : p.writes id = some row)
    (hunclaimed : p.Unclaimed cfg s id) (hexternal : p.KeepsExternal cfg s id)
    (hbehind : ∀ c ∈ s.credentials cfg, c.holder = p.target id →
      c.version ≤ row.tokenVersion ∧ (c.revoked = true → c.version < row.tokenVersion)) :
    Guarded External (holders db) (s.credentials cfg) := by
  refine hg.put hputs.find hputs.distinct ?_ hbehind ?_
  · intro hlive c hc hne
    obtain ⟨t, ht, rfl⟩ := List.mem_map.mp hc
    exact hunclaimed row hwrites (of_decide_eq_true hlive) t ht hne
  · intro c hc hpinned h hh hname
    obtain ⟨t, ht, rfl⟩ := List.mem_map.mp hc
    obtain ⟨stored, hstored, rfl⟩ := holders_some hh
    have hsubject := hexternal stored hstored (by rw [show stored.idpSubject = _ from hname]; exact hpinned)
      ⟨t, ht, hname.symm⟩
    rw [hwrites] at hsubject
    exact Option.some.inj hsubject

theorem live_revokeAt (sessions : List Session) (i : Option Uuid) (now : Time) :
    (sessions.map (Session.revokeAt i)).filter (Session.fresh cfg now) =
      (sessions.filter (Session.fresh cfg now)).map (Session.revokeAt i) := by
  have hfresh : Session.fresh cfg now ∘ Session.revokeAt i = Session.fresh cfg now := by
    funext t
    simp only [Function.comp_apply, Session.revokeAt]
    split <;> rfl
  rw [List.filter_map, hfresh]

theorem credentials_revokeAt (sessions : List Session) (i : Option Uuid) :
    (sessions.map (Session.revokeAt i)).map Session.credential =
      (sessions.map Session.credential).map (Credential.revokeAt i) := by
  rw [List.map_map, List.map_map]
  exact List.map_congr_left fun t _ => revokeAt_credential i t

theorem guarded_update {u : StaffUpdate} (hg : Guarded External (holders s.db) (s.credentials cfg))
    (hu : p.update = some u) (htarget : p.target id = u.user.id) (hwrites : p.writes id = some u.user.toRow)
    (hsave : ∃ m, u.user.save s.db = some m ∧ db.staffUsers = m.staffUsers)
    (hcurrent : p.Current cfg s) (hunclaimed : p.Unclaimed cfg s id) (hexternal : p.KeepsExternal cfg s id) :
    Guarded External (holders db) (s.credentials cfg) := by
  obtain ⟨m, hm, hdb⟩ := hsave
  rw [holders_congr hdb]
  apply guarded_of_puts hg (htarget ▸ puts_of_save hm) hwrites hunclaimed hexternal
  intro c hc hid
  obtain ⟨hle, hlt⟩ := behind_of_current hg hcurrent hu hc (hid.trans htarget)
  exact ⟨hle.trans u.version_le, fun h => (hlt h).trans_le u.version_le⟩

theorem guarded_write {w : StaffWrite} (hg : Guarded External (holders s.db) (s.credentials cfg))
    (hcommit : w.commit env id s.db = some db) (hid : ∀ t ∈ s.live cfg, t.user.id ≠ id)
    (hcurrent : (Pending.write w).Current cfg s) (hunclaimed : (Pending.write w).Unclaimed cfg s id)
    (hexternal : (Pending.write w).KeepsExternal cfg s id) :
    Guarded External (holders db) (((s.live cfg).map (Session.revokeAt w.revokes)).map Session.credential) := by
  rw [credentials_revokeAt]
  cases w with
  | create user audit =>
    obtain ⟨m, hm, hdb⟩ := staffUsers_of_audited hcommit
    have hput : Guarded External (holders db) (s.credentials cfg) := by
      rw [holders_congr hdb]
      refine guarded_of_puts (p := .write (.create user audit)) hg (puts_of_insert hm) rfl hunclaimed hexternal
        fun c hc hholder => ?_
      obtain ⟨t, ht, rfl⟩ := List.mem_map.mp hc
      exact absurd hholder (hid t ht)
    exact hput.revoke none fun c _ hnone => by cases hnone
  | update u audit =>
    have hput := guarded_update hg rfl rfl rfl (staffUsers_of_audited hcommit) hcurrent hunclaimed hexternal
    apply hput.revoke _
    intro c hc hholder h hh
    obtain ⟨m, hm, hdb⟩ := staffUsers_of_audited hcommit
    simp only [StaffWrite.revokes] at hholder
    split at hholder
    · rename_i hrevokes
      have hheld : c.holder = u.user.id := (Option.some.inj hholder).symm
      rw [holders_congr hdb, (puts_of_save hm).find, if_pos hheld] at hh
      cases hh
      exact (behind_of_current hg hcurrent rfl hc hheld).1.trans_lt (u.version_lt hrevokes)
    · cases hholder
  | remove user audit =>
    obtain ⟨m, hm, hdb⟩ := staffUsers_of_audited hcommit
    have hfind : ∀ j, holders db j = if j = user.id then none else holders s.db j := by
      rw [holders_congr hdb]
      exact remove_find hm
    have hput : Guarded External (holders db) (s.credentials cfg) := by
      apply hg.remove hfind
      intro c hc hpinned h hh hname
      obtain ⟨t, ht, rfl⟩ := List.mem_map.mp hc
      obtain ⟨stored, hstored, rfl⟩ := holders_some hh
      have hkept := hexternal stored hstored (by rw [show stored.idpSubject = _ from hname]; exact hpinned)
        ⟨t, ht, hname.symm⟩
      cases hkept
    apply hput.revoke _
    intro c _ hholder h hh
    rw [hfind, if_pos (Option.some.inj hholder).symm] at hh
    cases hh

theorem accepted {t : Session} {now : Time} {claims : TokenClaims} {user : StaffUser}
    (hg : Guarded External (holders s.db) (s.credentials cfg)) (ht : t ∈ s.live cfg)
    (hclaims : LocalAuthService.sessionClaims cfg now (t.token cfg) = some claims)
    (huser : AuthService.bySubject s.db claims.sub = some user) (haccepts : AuthService.accepts claims user = true) :
    user.id = t.user.id ∧ t.revoked = false := by
  obtain ⟨hsub, htv, _⟩ := LocalAuthService.sessionClaims_sign hclaims
  obtain ⟨hactive, hversion⟩ := Bool.and_eq_true _ _ |>.mp haccepts
  have hmatch : user.idpSubject = claims.sub := by simpa using List.find?_some huser
  have hfind : holders s.db user.id = some (holder user) := by
    simp only [holders, Table.findOne_of_mem (List.mem_of_find?_eq_some huser), Option.map_some]
  apply hg.rightful (mem_credentials ht) hfind hactive (hmatch.trans hsub)
  rw [htv] at hversion
  exact (Option.some.inj (of_decide_eq_true hversion)).symm

theorem found_of_external {t : Session} {now : Time} {claims : TokenClaims}
    (hg : Guarded External (holders s.db) (s.credentials cfg)) (ht : t ∈ s.live cfg)
    (hclaims : LocalAuthService.sessionClaims cfg now (t.token cfg) = some claims)
    (hexternal : isLocalSubject claims.sub = false) : AuthService.bySubject s.db claims.sub ≠ none := by
  obtain ⟨hsub, _⟩ := LocalAuthService.sessionClaims_sign hclaims
  rw [hsub] at hexternal ⊢
  obtain ⟨i, h, hfind, hname⟩ := hg.inUse _ (mem_credentials ht) hexternal
  obtain ⟨u, hu, rfl⟩ := holders_some hfind
  intro hnone
  exact List.find?_eq_none.mp hnone u (Table.mem_of_findOne hu) (decide_eq_true hname)

theorem rightful_none (session : Session) : Answer.Rightful ⟨session, none⟩ := fun _ h => by cases h

theorem Inv.answer (hI : Inv cfg s) {session : Session} {principal : Option AuthenticatedStaff}
    (h : Answer.Rightful ⟨session, principal⟩) : Inv cfg (s.answer session principal) := by
  refine { hI with answers := fun a ha => ?_ }
  rcases List.mem_append.mp ha with hold | hnew
  · exact hI.answers a hold
  · cases List.mem_singleton.mp hnew
    exact h

theorem Inv.hold (hI : Inv cfg s) {q : Option Pending}
    (hrefresh : ∀ session u, q = some (.refresh session u) → u.user.id = session.user.id ∧ session.revoked = false)
    (hknown : ∀ session claims, q ≠ some (.provision session claims)) : Inv cfg (s.hold slot q) := by
  refine { hI with refreshing := fun k session u hk => ?_, known := fun k session claims hk => ?_ }
  · by_cases hslot : k = slot
    · subst hslot
      exact hrefresh session u (by simpa [Accounts.hold] using hk)
    · exact hI.refreshing k session u (by simpa [Accounts.hold, hslot] using hk)
  · by_cases hslot : k = slot
    · subst hslot
      exact hknown session claims (by simpa [Accounts.hold] using hk)
    · exact hI.known k session claims (by simpa [Accounts.hold, hslot] using hk)

theorem tick_inv (hI : Inv cfg s) (d : ℕ) : Inv cfg { s with clock := s.clock + d } := by
  refine { hI with guarded := hI.guarded.mono fun c hc => ?_ }
  obtain ⟨t, ht, rfl⟩ := List.mem_map.mp hc
  obtain ⟨hmem, hfresh⟩ := List.mem_filter.mp ht
  refine mem_credentials (List.mem_filter.mpr ⟨hmem, decide_eq_true ?_⟩)
  have hlater : (s.clock + d) / 1000 < (t.token cfg).exp := of_decide_eq_true hfresh
  exact (Nat.div_le_div_right (Nat.le_add_right _ _)).trans_lt hlater

theorem login_inv (hI : Inv cfg s) (email password : String) : Inv cfg (s.login cfg email password) := by
  unfold Accounts.login
  split
  · exact hI
  · rename_i user hlogin
    have hfind : holders s.db user.id = some (holder user) := by
      simp only [holders, LocalAuthService.login_ok hlogin, Option.map_some]
    refine { hI with guarded := (hI.guarded.issue hfind).mono fun c hc => ?_ }
    obtain ⟨t, ht, rfl⟩ := List.mem_map.mp hc
    obtain ⟨hmem, hfresh⟩ := List.mem_filter.mp ht
    rcases List.mem_append.mp hmem with hold | hnew
    · exact List.mem_append_left _ (mem_credentials (List.mem_filter.mpr ⟨hold, hfresh⟩))
    · cases List.mem_singleton.mp hnew
      exact List.mem_append_right _ (List.mem_singleton.mpr rfl)

theorem request_inv (hI : Inv cfg s) (admin : AuthenticatedStaff) (r : StaffRequest) :
    Inv cfg (s.request cfg slot admin r) := by
  unfold Accounts.request
  split
  · exact hI
  · exact hI.hold (fun _ _ h => by cases h) (fun _ _ h => by cases h)

theorem verifyToken_inv (hI : Inv cfg s) (token : ℕ) : Inv cfg (s.verifyToken cfg slot env token) := by
  unfold Accounts.verifyToken
  split
  · exact hI
  · rename_i session hsession
    have ht := List.mem_of_getElem? hsession
    split
    · exact hI.answer (rightful_none session)
    · rename_i claims hclaims
      have hfresh := (LocalAuthService.sessionClaims_sign hclaims).2.2
      have hlive : session ∈ s.live cfg := List.mem_filter.mpr ⟨ht, decide_eq_true hfresh⟩
      rcases AuthService.claimed_cases s.db claims with hrefused | ⟨user, huser, haccepts, hanswer⟩ |
        ⟨hmissing, hexternal, _⟩
      · rw [hrefused]
        exact hI.answer (rightful_none session)
      · have hown := accepted hI.guarded hlive hclaims huser haccepts
        rcases hanswer with hknown | hchanged
        · rw [hknown]
          apply hI.answer
          intro p hp
          simp only [AuthService.answerKnown, Option.mem_def, Option.ite_none_left_eq_some] at hp
          obtain ⟨_, hp⟩ := hp
          cases hp
          exact hown
        · rw [hchanged]
          refine hI.hold (fun _ _ h => ?_) (fun _ _ h => by cases h)
          cases h
          exact hown
      · exact absurd hmissing (found_of_external hI.guarded hlive hclaims hexternal)

theorem save_inv (hI : Inv cfg s) (hid : ∀ t ∈ s.sessions, t.user.id ≠ id)
    (hkeeps : ∀ p ∈ s.inFlight slot, (p.commit env id s.db).isSome = true →
      p.Current cfg s ∧ p.Unclaimed cfg s id ∧ p.KeepsExternal cfg s id) : Inv cfg (s.save slot env id) := by
  have hcleared : Inv cfg (s.hold slot none) := hI.hold (fun _ _ h => by cases h) (fun _ _ h => by cases h)
  unfold Accounts.save
  split
  · exact hI
  · rename_i w hw
    split
    · exact hcleared
    · rename_i db hcommit
      obtain ⟨hcurrent, hunclaimed, hexternal⟩ :=
        hkeeps _ hw (Option.isSome_iff_exists.mpr ⟨db, hcommit⟩)
      have hguarded := guarded_write hI.guarded hcommit (fun t ht => hid t (List.mem_of_mem_filter ht))
        hcurrent hunclaimed hexternal
      rw [live, ← live_revokeAt] at hguarded
      exact { hcleared with guarded := hguarded }
  · rename_i session u hu
    obtain ⟨hown, hlive⟩ := hI.refreshing slot session u hu
    rcases AuthService.answerChanged_cases env u s.db with hfailed | ⟨db, hcommit, hanswer⟩
    · rw [hfailed]
      exact hcleared.answer (rightful_none session)
    · rw [hanswer]
      obtain ⟨hcurrent, hunclaimed, hexternal⟩ :=
        hkeeps _ hu (Option.isSome_iff_exists.mpr ⟨db, hcommit⟩)
      have hm := body_one hcommit
      have hguarded := guarded_update hI.guarded rfl rfl rfl ⟨_, hm, rfl⟩ hcurrent hunclaimed hexternal
      have hsaved : Inv cfg { s.hold slot none with db } := { hcleared with guarded := hguarded }
      apply hsaved.answer
      intro p hp
      simp only [Option.mem_def, Option.ite_none_left_eq_some] at hp
      obtain ⟨_, hp⟩ := hp
      cases hp
      exact ⟨hown, hlive⟩
  · rename_i session claims hprovision
    exact absurd hprovision (hI.known slot session claims)

theorem step_inv (a : Action) (hI : Inv cfg s) (hkeeps : KeepsSessions cfg s a ∧ DistinctIds s a) :
    Inv cfg (step cfg s a) := by
  cases a with
  | tick d => exact tick_inv hI d
  | login email password => exact login_inv hI email password
  | request slot admin r => exact request_inv hI admin r
  | verifyToken slot env token => exact verifyToken_inv hI token
  | save slot env id => exact save_inv hI hkeeps.2 hkeeps.1

theorem start_inv {clock : Time} (hunique : ∀ i j u v, db.staffUsers.findOne i = some u →
    db.staffUsers.findOne j = some v → u.idpSubject = v.idpSubject → i = j) : Inv cfg (start db clock) where
  guarded := by
    apply Guarded.none_issued
    intro i j h k hi hj hname
    obtain ⟨u, hu, rfl⟩ := holders_some hi
    obtain ⟨v, hv, rfl⟩ := holders_some hj
    exact hunique i j u v hu hv hname
  refreshing := fun _ _ _ h => by cases h
  known := fun _ _ _ h => by cases h
  answers := fun _ h => by cases h

/-- Whatever requests run and however their loads and saves interleave, a token opens the account it
was signed for only, and nothing once that account's sessions are revoked, if every save that goes
through is of a current row, gives it no subject and version of another row's token, and leaves
external subjects in place. -/
theorem tokens_rightful_of_keepsSessions (cfg : AuthConfig) (db : Db) (clock : Time) (as : List Action)
    (hunique : ∀ i j u v, db.staffUsers.findOne i = some u → db.staffUsers.findOne j = some v →
      u.idpSubject = v.idpSubject → i = j)
    (hids : EveryStep (step cfg) DistinctIds (start db clock) as)
    (hkeeps : EveryStep (step cfg) (KeepsSessions cfg) (start db clock) as) :
    Always (step cfg) (fun s => ∀ a ∈ s.answers, a.Rightful) (start db clock) as := by
  have hboth : EveryStep (step cfg) (fun s a => KeepsSessions cfg s a ∧ DistinctIds s a) (start db clock) as :=
    everyStep_iff_initial.mpr fun pre a hpre =>
      ⟨everyStep_iff_initial.mp hkeeps pre a hpre, everyStep_iff_initial.mp hids pre a hpre⟩
  exact (always_of_everyStep (fun _ a hI hG => step_inv a hI hG) (start_inv hunique) hboth).mono
    fun _ hI => hI.answers

end Accounts

namespace Sample

def authConfig : AuthConfig := ⟨true, 28800, id, id, fun password hash => hash = "hash of " ++ password⟩

def root : StaffUser := ⟨"root", "local:root@cimp", "Root", "root@cimp", some "hash of root", .active, 1⟩

def staffed : Db := { Db.empty with staffUsers := ⟨[root], by decide⟩, roles := [⟨"root-admin", "root", none, .admin⟩] }

def rootStaff : AuthenticatedStaff := ⟨"root", "local:root@cimp", "Root", "root@cimp", [⟨.admin, none⟩]⟩

theorem staffed_unique (i j : Uuid) (u v : StaffUser) (hi : staffed.staffUsers.findOne i = some u)
    (hj : staffed.staffUsers.findOne j = some v) (_ : u.idpSubject = v.idpSubject) : i = j := by
  have hu : u = root := List.mem_singleton.mp (Table.mem_of_findOne hi)
  have hv : v = root := List.mem_singleton.mp (Table.mem_of_findOne hj)
  rw [← Table.findOne_key hi, ← Table.findOne_key hj, hu, hv]

def administer (r : StaffRequest) (id : Uuid) : List Accounts.Action :=
  [.request 0 rootStaff r, .save 0 { now := 0 } id]

def create (id : Uuid) : List Accounts.Action :=
  administer (.createStaff ⟨"Priya", "priya@cimp"⟩ "hash of secret") id

end Sample

namespace Accounts

def resetInTime : List Action :=
  Sample.create "priya"
    ++ [.login "priya@cimp" "secret", .verifyToken 1 { now := 0 } 0]
    ++ Sample.administer (.updateStaff "priya" ⟨some "Priya N.", none, none⟩) "-"
    ++ [.tick 5000, .verifyToken 1 { now := 0 } 0, .save 1 { now := 0 } "-"]
    ++ Sample.administer (.setStaffPassword "priya" "hash of other") "-"
    ++ [.verifyToken 1 { now := 0 } 0]

theorem tokens_rightful_of_keepsSessions_resetInTime :
    Always (step Sample.authConfig) (fun s => ∀ a ∈ s.answers, a.Rightful) (start Sample.staffed 0) resetInTime :=
  tokens_rightful_of_keepsSessions Sample.authConfig Sample.staffed 0 resetInTime Sample.staffed_unique
    (by decide) (by decide)

def deletedAndRecreated : List Action :=
  Sample.create "priya"
    ++ [.login "priya@cimp" "secret"]
    ++ Sample.administer (.deleteStaff "priya") "-"
    ++ Sample.create "successor"
    ++ [.verifyToken 1 { now := 0 } 0]

theorem token_outlives_its_account :
    ¬ ∀ (cfg : AuthConfig) (db : Db) (clock : Time) (as : List Action),
      (∀ i j u v, db.staffUsers.findOne i = some u → db.staffUsers.findOne j = some v →
        u.idpSubject = v.idpSubject → i = j) →
      EveryStep (step cfg) DistinctIds (start db clock) as →
        Always (step cfg) (fun s => ∀ a ∈ s.answers, a.Rightful) (start db clock) as := by
  intro h
  have hfinal := (h Sample.authConfig Sample.staffed 0 deletedAndRecreated Sample.staffed_unique (by decide)).final
  have hanswers : (exec (step Sample.authConfig) (start Sample.staffed 0) deletedAndRecreated).answers.map
      (fun a => (a.session.user.id, a.principal.map AuthenticatedStaff.id)) = [("priya", some "successor")] := by
    decide
  obtain ⟨a, hlist, ha⟩ := List.map_eq_singleton_iff.mp hanswers
  obtain ⟨howner, hprincipal⟩ := Prod.mk.inj ha
  obtain ⟨p, hp, hid⟩ := Option.map_eq_some_iff.mp hprincipal
  have hown := (hfinal a (hlist ▸ List.mem_singleton_self a) p hp).1
  rw [hid, howner] at hown
  revert hown
  decide

end Accounts

end Cimp
