import Cimp.Auth.Admin

namespace Cimp

namespace LocalAuthService

def signSseTicket (cfg : AuthConfig) (now : Time) (db : Db) (idpSubject : String) : Option JwtPayload :=
  if cfg.enabled = false then none
  else match AuthService.bySubject db idpSubject with
    | none => none
    | some user =>
      if user.status = .active then some ⟨idpSubject, none, none, some user.tokenVersion, some "sse", now / 1000 + 30⟩
      else none

/-- `maxAge` asks for what `exp` already says of a ticket. -/
def ticketClaims (cfg : AuthConfig) (now : Time) (ticket : JwtPayload) : Option TokenClaims :=
  if cfg.enabled = false then none
  else if ticket.exp ≤ now / 1000 then none
  else if ticket.aud ≠ some "sse" then none
  else ticket.sub.map fun sub => ⟨sub, none, none, ticket.tv⟩

def verifySseTicket (cfg : AuthConfig) (env : Env) (id : Uuid) (now : Time) (ticket : JwtPayload) (db : Db) :
    Db × Option AuthenticatedStaff :=
  match ticketClaims cfg now ticket with
  | none => (db, none)
  | some claims => AuthService.upsertFromClaims env claims id db

end LocalAuthService

namespace AuthService

variable {env : Env} {claims : TokenClaims} {id : Uuid} {db db' : Db} {staff : AuthenticatedStaff}

theorem bySubject_found {sub : String} {user : StaffUser} (h : bySubject db sub = some user) :
    db.staffUsers.findOne user.id = some user := Table.findOne_of_mem (List.mem_of_find?_eq_some h)

def Admitted (db : Db) (staff : AuthenticatedStaff) : Prop :=
  (∃ row ∈ db.staffUsers.findOne staff.id, row.status = .active) ∧ staff.roles = loadRoles db staff.id

theorem answerKnown_admitted {user : StaffUser} (huser : db.staffUsers.findOne user.id = some user)
    (hactive : user.status = .active) (h : answerKnown env user db = some staff) : Admitted db staff := by
  simp only [answerKnown, Option.ite_none_left_eq_some] at h
  obtain ⟨_, h⟩ := h
  cases h
  exact ⟨⟨user, huser, hactive⟩, rfl⟩

theorem accepts_active {user : StaffUser} (h : accepts claims user = true) : user.status = .active := by
  simp only [accepts, Bool.and_eq_true, decide_eq_true_eq] at h
  exact h.1

theorem answerFirstContact_admitted (h : answerFirstContact env claims id db = (db', some staff)) :
    Admitted db' staff := by
  simp only [answerFirstContact] at h
  split at h
  · cases h
  · split at h
    · rename_i saved hsaved
      simp only [Prod.mk.injEq, Option.ite_none_left_eq_some] at h
      obtain ⟨rfl, _, h⟩ := h
      cases h
      refine ⟨⟨(newStaff claims).toRow id, ?_, rfl⟩, rfl⟩
      exact (StaffUser.findOne_insert hsaved _).trans (if_pos rfl)
    · split at h
      · cases h
      · rename_i user huser
        simp only [Prod.mk.injEq, Option.ite_none_right_eq_some] at h
        obtain ⟨rfl, haccepts, h⟩ := h
        exact answerKnown_admitted (bySubject_found huser) (accepts_active haccepts) h

theorem upsertFromClaims_admitted (h : upsertFromClaims env claims id db = (db', some staff)) : Admitted db' staff := by
  unfold upsertFromClaims at h
  obtain hrefused | ⟨user, huser, haccepts, hknown | hchanged⟩ | ⟨_, _, hfirst⟩ := claimed_cases db claims
  · rw [hrefused] at h
    cases h
  · rw [hknown] at h
    simp only [Prod.mk.injEq] at h
    obtain ⟨rfl, h⟩ := h
    exact answerKnown_admitted (bySubject_found huser) (accepts_active haccepts) h
  · rw [hchanged] at h
    dsimp only at h
    obtain hfailed | ⟨saved, hsaved, hanswer⟩ := answerChanged_cases env (refreshed claims user) db
    · rw [hfailed] at h
      cases h
    · rw [hanswer] at h
      simp only [Prod.mk.injEq, Option.ite_none_left_eq_some] at h
      obtain ⟨rfl, _, h⟩ := h
      cases h
      obtain ⟨m, hm, hnil⟩ := Transaction.body_cons hsaved
      cases hnil
      refine ⟨⟨_, (StaffEntity.findOne_save hm (bySubject_found huser) _).trans (if_pos rfl), ?_⟩, rfl⟩
      exact accepts_active haccepts
  · rw [hfirst] at h
    exact answerFirstContact_admitted h

end AuthService

theorem LocalAuthService.verifySseTicket_admitted {cfg : AuthConfig} {env : Env} {id : Uuid} {now : Time}
    {ticket : JwtPayload} {db db' : Db} {staff : AuthenticatedStaff}
    (h : verifySseTicket cfg env id now ticket db = (db', some staff)) : AuthService.Admitted db' staff := by
  unfold verifySseTicket at h
  split at h
  · cases h
  · exact AuthService.upsertFromClaims_admitted h

theorem LocalAuthService.ticketClaims_sign {cfg : AuthConfig} {now later : Time} {db : Db} {sub : String} {ticket : JwtPayload}
    (h : signSseTicket cfg now db sub = some ticket) (hlater : later / 1000 < now / 1000 + 30) :
    ∃ user, AuthService.bySubject db sub = some user ∧ user.status = .active ∧
      ticketClaims cfg later ticket = some ⟨sub, none, none, some user.tokenVersion⟩ := by
  unfold signSseTicket at h
  split at h
  · cases h
  · rename_i henabled
    split at h
    · cases h
    · rename_i user huser
      rw [Option.ite_none_right_eq_some] at h
      obtain ⟨hactive, h⟩ := h
      cases h
      have hfresh : ¬ now / 1000 + 30 ≤ later / 1000 := Nat.not_le_of_lt hlater
      exact ⟨user, huser, hactive, by simp [ticketClaims, henabled, hfresh]⟩

/-- A ticket lets its owner in until it expires, if the account stays as it was. -/
theorem LocalAuthService.verifySseTicket_sign {cfg : AuthConfig} {env : Env} {now later : Time} {db : Db} {sub : String}
    {ticket : JwtPayload} (id : Uuid) (h : signSseTicket cfg now db sub = some ticket) (hsub : sub ≠ "")
    (hlater : later / 1000 < now / 1000 + 30) (hread : env.read = false) :
    ∃ user, AuthService.bySubject db sub = some user ∧
      verifySseTicket cfg env id later ticket db = (db, some (AuthService.toAuthenticated db user.toEntity)) := by
  obtain ⟨user, huser, hactive, hclaims⟩ := ticketClaims_sign h hlater
  have haccepts : AuthService.accepts ⟨sub, none, none, some user.tokenVersion⟩ user = true := by
    simp [AuthService.accepts, hactive]
  have hknown : AuthService.claimed db ⟨sub, none, none, some user.tokenVersion⟩ = .known user := by
    simp [AuthService.claimed, hsub, huser, haccepts]
  refine ⟨user, huser, ?_⟩
  simp only [verifySseTicket, hclaims, AuthService.upsertFromClaims, hknown, AuthService.answerKnown, hread,
    Bool.false_eq_true, if_false]

end Cimp
