import Cimp.Authz.Scope
import Cimp.Entities

namespace Cimp

def isHexDigit (c : Char) : Bool :=
  c.isDigit || ('a' ≤ c && c ≤ 'f') || ('A' ≤ c && c ≤ 'F')

def hexGroups : List ℕ → List Char → Bool
  | [], cs => cs.isEmpty
  | [n], cs => cs.length = n && cs.all isHexDigit
  | n :: ns, cs =>
    (cs.take n).length = n && (cs.take n).all isHexDigit && (cs.drop n).head? = some '-'
      && hexGroups ns (cs.drop (n + 1))

def uuidPattern (s : String) : Bool := hexGroups [8, 4, 4, 4, 12] s.toList

namespace PlatformAccessGuard

def canActivate (db : Db) (staff : AuthenticatedStaff) (required : List Role) (issueId : Uuid) :
    Except HttpException Unit :=
  if uuidPattern issueId = false then .error (.notFound "Issue not found")
  else match db.issues.findOne issueId with
    | none => .error (.notFound "Issue not found")
    | some issue => do
      require (ScopeService.canAccessPlatform staff issue.platform staffReadRoles) (.notFound "Issue not found")
      require (ScopeService.canAccessPlatform staff issue.platform required)
        (.forbidden "You do not have access to this issue.")

/-- `canActivate` on a route without one. -/
def canActivateAnywhere (staff : AuthenticatedStaff) (required : List Role) : Except HttpException Unit :=
  require (staff.roles.any fun g => g.role ∈ required) (.forbidden "Insufficient role.")

variable {db : Db} {staff : AuthenticatedStaff} {required : List Role} {issueId : Uuid}

structure Admits (db : Db) (staff : AuthenticatedStaff) (required : List Role) (issueId : Uuid) : Prop where
  wellFormed : uuidPattern issueId = true
  granted : ∃ issue, db.issues.findOne issueId = some issue ∧
    ScopeService.canAccessPlatform staff issue.platform required = true

theorem canActivate_of_admits (h : Admits db staff required issueId) :
    canActivate db staff required issueId = .ok () := by
  obtain ⟨issue, hissue, hgrant⟩ := h.granted
  have hread := canAccessPlatform_mono (fun r _ => mem_staffReadRoles r) hgrant
  simp [canActivate, h.wellFormed, hissue, hread, hgrant, require, bind, Except.bind]

theorem canActivate_of_not_admits (h : ¬ Admits db staff required issueId) :
    ∃ e, canActivate db staff required issueId = .error e := by
  cases hrun : canActivate db staff required issueId with
  | error e => exact ⟨e, rfl⟩
  | ok u =>
    refine absurd ?_ h
    unfold canActivate at hrun
    split at hrun
    · cases hrun
    · rename_i hpattern
      split at hrun
      · cases hrun
      · rename_i issue hissue
        obtain ⟨_, _, hrun⟩ := bind_ok hrun
        exact ⟨by simpa using hpattern, issue, hissue, require_ok hrun⟩

theorem canActivate_missing (h : db.issues.findOne issueId = none) :
    canActivate db staff required issueId = .error (.notFound "Issue not found") := by
  unfold canActivate
  split
  · rfl
  · rw [h]

theorem canActivate_outside {issue : Issue} (h : db.issues.findOne issueId = some issue)
    (hout : staff.Outside issue.platform) :
    canActivate db staff required issueId = .error (.notFound "Issue not found") := by
  unfold canActivate
  split
  · rfl
  · rw [h]
    simp only [hout.canAccessPlatform, require]
    rfl

end PlatformAccessGuard

end Cimp
