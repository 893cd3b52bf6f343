import Cimp.Issues.Changes

namespace Cimp

def slaDue (cfg : Config) (row : Issue) : Time := row.slaStartedAt + cfg.slaWindow row.platform row.priority

namespace SlaEscalationService

def overdue (cfg : Config) (now : Time) (row : Issue) : Bool :=
  row.status ∈ openIssueStatuses && row.slaBreachedAt = none && slaDue cfg row ≤ now

def select (cfg : Config) (now : Time) (db : Db) : List Issue := db.issues.rows.filter (overdue cfg now)

def marked (now : Time) (row : Issue) : Issue :=
  { row with slaBreachedAt := some now, updatedAt := now, version := row.version + 1 }

@[simp] theorem marked_id (now : Time) (row : Issue) : (marked now row).id = row.id := rfl

/-- `UPDATE issues SET sla_breached_at = ... WHERE id = ... AND sla_breached_at IS NULL`; `none` is
`affected = 0`. -/
def mark (now : Time) (id : Uuid) (db : Db) : Option Db :=
  match db.issues.findOne id with
  | none => none
  | some row =>
    if row.slaBreachedAt = none then
      some { db with issues := db.issues.update id (marked now) (marked_id now) }
    else none

def breachAudit (id : Uuid) : AuditInput where
  issueId := id
  actorType := .system
  actorId := none
  action := "SLA_BREACHED"

theorem mark_some {now : Time} {id : Uuid} {s t : Db} (h : mark now id s = some t) :
    ∃ row, s.issues.findOne id = some row ∧ row.slaBreachedAt = none ∧
      t = { s with issues := s.issues.update id (marked now) (marked_id now) } := by
  unfold mark at h
  split at h
  · cases h
  · rename_i row hrow
    split at h
    · rename_i hnull
      cases h
      exact ⟨row, hrow, hnull, rfl⟩
    · cases h

theorem mem_select {cfg : Config} {now : Time} {db : Db} {row : Issue} (h : row ∈ select cfg now db) :
    row.status ∈ openIssueStatuses ∧ slaDue cfg row ≤ now := by
  simp only [select, overdue, List.mem_filter, Bool.and_eq_true, decide_eq_true_eq] at h
  exact ⟨h.2.1.1, h.2.2⟩

end SlaEscalationService

end Cimp
