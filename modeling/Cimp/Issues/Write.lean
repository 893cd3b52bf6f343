import Cimp.Orm
import Cimp.Events

namespace Cimp

open Transaction

/-- What the environment decides about one unit of work: the clock and which database calls fail. -/
structure Env where
  now : Time
  read : Bool := false
  statement : ℕ → Bool := fun _ => false
  message : String := "Update failed"

/-- No database call fails. -/
def Env.Healthy (env : Env) : Prop := env.read = false ∧ ∀ k, env.statement k = false

/-- A checked request, ready for its transaction. Every path that changes an issue saves the entity
it loaded first and writes its audit rows last; what lies between touches neither table. -/
structure Write where
  issue : IssueEntity
  others : Time → List (Statement Db)
  audit : List AuditInput
  events : List IssueEvent
  frame : ∀ now, ∀ q ∈ others now, Keeps (fun db => (db.issues, db.auditEvents)) q

namespace Write

theorem frame_nil (_ : Time) : ∀ q ∈ ([] : List (Statement Db)), Keeps (fun db => (db.issues, db.auditEvents)) q :=
  fun _ hq => absurd hq List.not_mem_nil

def statements (now : Time) (w : Write) : List (Statement Db) :=
  w.issue.save now :: (w.others now ++ w.audit.map (AuditService.record now))

def body (env : Env) (w : Write) : Statement Db := Transaction.body env.statement (w.statements env.now)

def commit (env : Env) (w : Write) (db : Db) : Db := (w.body env db).getD db

theorem records_auditEvents {fails : ℕ → Bool} {now : Time} {audit : List AuditInput} {s t : Db}
    (h : Transaction.body fails (audit.map (AuditService.record now)) s = some t) :
    t.auditEvents = s.auditEvents ++ audit.map (AuditInput.toEvent now) := by
  induction audit generalizing fails s with
  | nil => cases h; simp
  | cons a audit ih =>
    obtain ⟨m, hm, hrest⟩ := body_cons h
    cases hm
    rw [ih hrest]
    simp

theorem keeps_body {β : Type} {π : Db → β} {env : Env} {w : Write}
    (hissues : ∀ db issues, π { db with issues } = π db) (haudit : ∀ db auditEvents, π { db with auditEvents } = π db)
    (hothers : ∀ q ∈ w.others env.now, Keeps π q) : Keeps π (w.body env) := by
  refine Keeps.body (fun q hq => ?_) env.statement
  simp only [statements, List.mem_cons, List.mem_append, List.mem_map] at hq
  rcases hq with rfl | hother | ⟨i, _, rfl⟩
  · exact IssueEntity.keeps_save hissues _ _
  · exact hothers q hother
  · exact AuditService.keeps_record haudit _ _

theorem body_spec {env : Env} {w : Write} {s t : Db} (h : w.body env s = some t) :
    t.issues = s.issues.update w.issue.id (w.issue.written env.now) (w.issue.written_id env.now) ∧
      t.auditEvents = s.auditEvents ++ w.audit.map (AuditInput.toEvent env.now) := by
  obtain ⟨m, hm, hrest⟩ := body_cons h
  cases hm
  obtain ⟨m', hothers, haudit⟩ := body_append hrest
  have hframe := Keeps.body (w.frame env.now) _ _ _ hothers
  simp only [Prod.mk.injEq] at hframe
  constructor
  · have hkeep : ∀ q ∈ w.audit.map (AuditService.record env.now), Keeps Db.issues q := by
      simp only [List.mem_map]
      rintro q ⟨i, _, rfl⟩
      exact AuditService.keeps_record (fun _ _ => rfl) env.now i
    rw [Keeps.body hkeep _ _ _ haudit, hframe.1]
  · rw [records_auditEvents haudit, hframe.2]

theorem commit_cases (env : Env) (w : Write) (db : Db) :
    (w.body env db = none ∧ w.commit env db = db) ∨
      ∃ t, w.body env db = some t ∧ w.commit env db = t := by
  cases h : w.body env db with
  | none => exact .inl ⟨rfl, by simp [commit, h]⟩
  | some t => exact .inr ⟨t, rfl, by simp [commit, h]⟩

theorem findOne_of_body {env : Env} {w : Write} {s t : Db} (h : w.body env s = some t) (i : Uuid) :
    t.issues.findOne i =
      if i = w.issue.id then (s.issues.findOne i).map (w.issue.written env.now)
      else s.issues.findOne i := by
  rw [(body_spec h).1, Table.findOne_update]

end Write

end Cimp
