import Cimp.Entities

namespace Cimp

structure StaffRoleGrant where
  role : Role
  platformId : Option Uuid
deriving DecidableEq, Repr

structure AuthenticatedStaff where
  id : Uuid
  idpSubject : String
  name : String
  email : String
  roles : List StaffRoleGrant
deriving DecidableEq, Repr

def staffReadRoles : List Role := [.focalPoint, .developer, .admin, .watcher]

def staffWriteRoles : List Role := [.focalPoint, .developer, .admin]

inductive PlatformScope
  | all
  | ids (platforms : List Uuid)
deriving DecidableEq, Repr

namespace ScopeService

def scopedPlatformIds (staff : AuthenticatedStaff) : PlatformScope :=
  if staff.roles.any (fun g => g.platformId = none) then .all
  else .ids ((staff.roles.filterMap StaffRoleGrant.platformId).filter (fun p => p ≠ "")).eraseDups

def canAccessPlatform (staff : AuthenticatedStaff) (platformId : Uuid) (requiredRoles : List Role) : Bool :=
  staff.roles.any fun g =>
    g.role ∈ requiredRoles && (g.platformId = none || g.platformId = some platformId)

def scopeAllows (scope : PlatformScope) (platformId : Uuid) : Bool :=
  match scope with
  | .all => true
  | .ids platforms => platformId ∈ platforms

end ScopeService

/-- The staff member holds no role on the platform and no global role. -/
def AuthenticatedStaff.Outside (staff : AuthenticatedStaff) (platformId : Uuid) : Prop :=
  ∀ g ∈ staff.roles, g.platformId ≠ none ∧ g.platformId ≠ some platformId

theorem AuthenticatedStaff.Outside.canAccessPlatform {staff : AuthenticatedStaff} {platformId : Uuid}
    (h : staff.Outside platformId) (roles : List Role) :
    ScopeService.canAccessPlatform staff platformId roles = false := by
  simp only [ScopeService.canAccessPlatform, List.any_eq_false, Bool.and_eq_true, Bool.or_eq_true,
    decide_eq_true_eq, not_and, not_or]
  intro g hg _
  exact h g hg

theorem mem_staffReadRoles (r : Role) : r ∈ staffReadRoles := by cases r <;> decide

theorem canAccessPlatform_mono {staff : AuthenticatedStaff} {platformId : Uuid} {roles more : List Role}
    (hsub : ∀ r ∈ roles, r ∈ more) (h : ScopeService.canAccessPlatform staff platformId roles = true) :
    ScopeService.canAccessPlatform staff platformId more = true := by
  simp only [ScopeService.canAccessPlatform, List.any_eq_true, Bool.and_eq_true,
    decide_eq_true_eq] at h ⊢
  obtain ⟨g, hg, hrole, hplatform⟩ := h
  exact ⟨g, hg, hsub _ hrole, hplatform⟩

theorem scopeAllows_scopedPlatformIds (staff : AuthenticatedStaff) (platformId : Uuid) :
    ScopeService.scopeAllows (ScopeService.scopedPlatformIds staff) platformId = true ↔
      ∃ g ∈ staff.roles, g.platformId = none ∨ g.platformId = some platformId ∧ platformId ≠ "" := by
  unfold ScopeService.scopedPlatformIds
  split
  · rename_i hglobal
    obtain ⟨g, hg, hnone⟩ := List.any_eq_true.mp hglobal
    exact iff_of_true rfl ⟨g, hg, .inl (of_decide_eq_true hnone)⟩
  · rename_i hglobal
    have hlocal : ∀ g ∈ staff.roles, g.platformId ≠ none := fun g hg hnone =>
      hglobal (List.any_eq_true.mpr ⟨g, hg, decide_eq_true hnone⟩)
    simp only [ScopeService.scopeAllows, decide_eq_true_eq, List.mem_eraseDups, List.mem_filter, List.mem_filterMap]
    constructor
    · rintro ⟨⟨g, hg, hplatform⟩, hne⟩
      exact ⟨g, hg, .inr ⟨hplatform, hne⟩⟩
    · rintro ⟨g, hg, hnone | ⟨hplatform, hne⟩⟩
      · exact absurd hnone (hlocal g hg)
      · exact ⟨⟨g, hg, hplatform⟩, hne⟩

end Cimp
