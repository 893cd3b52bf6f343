import Cimp.Orm

namespace Cimp

def statusTransitions : IssueStatus → List IssueStatus
  | .new => [.inProgress, .onHold, .closed]
  | .inProgress => [.onHold, .resolved]
  | .onHold => [.inProgress, .closed]
  | .resolved => [.closed, .reopened]
  | .closed => [.reopened]
  | .reopened => [.inProgress]

def canTransition (old target : IssueStatus) : Bool := target ∈ statusTransitions old

def applyStatusSideEffects (now : Time) (issue : IssueEntity) (target : IssueStatus) : IssueEntity :=
  match target with
  | .resolved => { issue with resolvedAt := some now }
  | .closed => { issue with closedAt := some (issue.closedAt.getD now) }
  | .reopened =>
    { issue with
      resolvedAt := none
      closedAt := none
      duplicateOf := some none
      slaStartedAt := now
      slaBreachedAt := none }
  | _ => issue

/-- `issue.status = target; applyStatusSideEffects(issue, target)`. -/
def IssueEntity.setStatus (now : Time) (issue : IssueEntity) (target : IssueStatus) : IssueEntity :=
  applyStatusSideEffects now { issue with status := target } target

namespace IssueEntity

variable (now : Time) (issue : IssueEntity) (target : IssueStatus)

@[simp] theorem setStatus_status : (issue.setStatus now target).status = target := by cases target <;> rfl

@[simp] theorem setStatus_id : (issue.setStatus now target).id = issue.id := by cases target <;> rfl

@[simp] theorem setStatus_platform : (issue.setStatus now target).platform = issue.platform := by
  cases target <;> rfl

@[simp] theorem setStatus_version : (issue.setStatus now target).version = issue.version := by
  cases target <;> rfl

@[simp] theorem setStatus_priority : (issue.setStatus now target).priority = issue.priority := by
  cases target <;> rfl

@[simp] theorem setStatus_createdAt : (issue.setStatus now target).createdAt = issue.createdAt := by
  cases target <;> rfl

theorem setStatus_duplicateOf : (issue.setStatus now target).duplicateOf =
    if target = .reopened then some none else issue.duplicateOf := by cases target <;> rfl

theorem setStatus_resolvedAt : (issue.setStatus now target).resolvedAt =
    if target = .resolved then some now else if target = .reopened then none else issue.resolvedAt := by
  cases target <;> rfl

theorem setStatus_slaStartedAt : (issue.setStatus now target).slaStartedAt =
    if target = .reopened then now else issue.slaStartedAt := by cases target <;> rfl

theorem setStatus_slaBreachedAt : (issue.setStatus now target).slaBreachedAt =
    if target = .reopened then none else issue.slaBreachedAt := by cases target <;> rfl

end IssueEntity

end Cimp
