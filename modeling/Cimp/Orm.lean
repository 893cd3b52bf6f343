import Cimp.Entities

namespace Cimp

/-- A loaded issue. A relation column is `none` (JavaScript's `undefined`) unless the load asked for
the relation or the code assigned it; `save` passes over such a column. The platform is only read. -/
structure IssueEntity extends IssueColumns where
  id : Uuid
  platform : Uuid
  assignee : Option (Option Uuid)
  duplicateOf : Option (Option Uuid)
  version : ℕ
deriving DecidableEq, Repr

structure Relations where
  assignee : Bool := false
  duplicateOf : Bool := false
deriving DecidableEq, Repr

def Issue.toEntity (relations : Relations) (row : Issue) : IssueEntity where
  toIssueColumns := row.toIssueColumns
  id := row.id
  platform := row.platform
  assignee := if relations.assignee then some row.assignee else none
  duplicateOf := if relations.duplicateOf then some row.duplicateOf else none
  version := row.version

namespace IssueEntity

def assign (e : IssueEntity) (row : Issue) : Issue :=
  { row with
    toIssueColumns := e.toIssueColumns
    assignee := e.assignee.getD row.assignee
    duplicateOf := e.duplicateOf.getD row.duplicateOf }

/-- `UPDATE ... SET <changed columns>, version = version + 1, updated_at = now() WHERE id = ...`;
with no changed column no statement is issued. -/
def written (now : Time) (e : IssueEntity) (row : Issue) : Issue :=
  if e.assign row = row then row
  else { e.assign row with version := row.version + 1, updatedAt := now }

@[simp] theorem written_id (now : Time) (e : IssueEntity) (row : Issue) :
    (e.written now row).id = row.id := by unfold written; split <;> rfl

def save (now : Time) (e : IssueEntity) : Statement Db := fun db =>
  some { db with issues := db.issues.update e.id (e.written now) (e.written_id now) }

theorem keeps_save {β : Type} {π : Db → β} (h : ∀ db issues, π { db with issues } = π db) (now : Time)
    (e : IssueEntity) : Transaction.Keeps π (e.save now) := by
  intro s t hq
  cases hq
  exact h s _

@[simp] theorem assign_id (e : IssueEntity) (row : Issue) : (e.assign row).id = row.id := rfl

@[simp] theorem assign_columns (e : IssueEntity) (row : Issue) :
    (e.assign row).toIssueColumns = e.toIssueColumns := rfl

theorem written_columns (now : Time) (e : IssueEntity) (row : Issue) :
    (e.written now row).toIssueColumns = e.toIssueColumns := by
  unfold written
  split
  · rename_i h
    rw [← h]; rfl
  · rfl

theorem written_duplicateOf (now : Time) (e : IssueEntity) (row : Issue) :
    (e.written now row).duplicateOf = e.duplicateOf.getD row.duplicateOf := by
  unfold written
  split
  · rename_i h
    exact (congrArg Issue.duplicateOf h).symm
  · rfl

@[simp] theorem written_platform (now : Time) (e : IssueEntity) (row : Issue) :
    (e.written now row).platform = row.platform := by unfold written; split <;> rfl

@[simp] theorem written_reporter (now : Time) (e : IssueEntity) (row : Issue) :
    (e.written now row).reporter = row.reporter := by unfold written; split <;> rfl

theorem written_version (now : Time) (e : IssueEntity) (row : Issue) :
    (e.written now row).version = if e.assign row = row then row.version else row.version + 1 := by
  unfold written; split <;> rfl

theorem version_le_written (now : Time) (e : IssueEntity) (row : Issue) :
    row.version ≤ (e.written now row).version := by
  rw [written_version]; split <;> omega

theorem written_of_version_eq {now : Time} {e : IssueEntity} {row : Issue}
    (h : (e.written now row).version = row.version) : e.written now row = row := by
  unfold written at h ⊢
  split at h
  · rename_i he
    rw [if_pos he]
  · simp at h

end IssueEntity

end Cimp
