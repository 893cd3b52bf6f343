import Cimp.Authz.Scope
import Cimp.Issues.Resolutions
import Cimp.Lib.Double
import Mathlib.Data.List.Dedup

namespace Cimp

open Double Execution Journal

namespace DashboardService

def thirtyDays : Time := 30 * 24 * 60 * 60 * 1000

/-- `t >= now() - interval '30 days'`. -/
def recent (now t : Time) : Bool := now ≤ t + thirtyDays

/-- `FROM audit_events a JOIN issues i ON i.id = a.issue_id`. -/
def auditJoin (db : Db) : List (AuditEvent × Issue) :=
  db.auditEvents.flatMap fun a => (db.issues.rows.filter fun i => a.issue = some i.id).map fun i => (a, i)

variable (scope : PlatformScope) (now : Time) (db : Db)

def reopens : ℕ :=
  let rows := (auditJoin db).filter fun row => row.1.action = "STATUS_CHANGED" && row.1.newValue = some "REOPENED" &&
    recent now row.1.createdAt && ScopeService.scopeAllows scope row.2.platform
  (rows.map fun row => row.1.issue).dedup.length

def movedIn (target : IssueStatus) (i : Uuid) : Bool :=
  db.auditEvents.any fun a => a.movedTo target i && recent now a.createdAt

def standsIn (i : Uuid) : Bool := (lastResolved i db.auditEvents).any (recent now)

def countIssues (p : Uuid → Bool) : ℕ :=
  db.issues.rows.countP fun i => ScopeService.scopeAllows scope i.platform && p i.id

def resolved : ℕ := countIssues scope db (movedIn now db .resolved)

def resolvedAndReopened : ℕ :=
  countIssues scope db fun i => movedIn now db .resolved i && movedIn now db .reopened i

def standing : ℕ := countIssues scope db (standsIn now db)

def undone : ℕ := countIssues scope db fun i => movedIn now db .resolved i && !standsIn now db i

def stray : ℕ := countIssues scope db fun i => !movedIn now db .resolved i && movedIn now db .reopened i

variable {scope now db}

/-- What the code divides gives the percentage all the same: every reopened issue, by the issues whose
resolution stands. -/
def Faithful (scope : PlatformScope) (now : Time) (db : Db) : Prop :=
  resolved scope now db = 0 ∨ 0 < standing scope now db ∧
    percent (resolvedAndReopened scope now db + stray scope now db) (standing scope now db) =
      round (resolvedAndReopened scope now db / (standing scope now db + undone scope now db : ℕ) * 100 : ℚ)

/-- No resolution was undone and nothing resolved earlier was reopened; the percentage is no half. -/
structure Undisturbed (scope : PlatformScope) (now : Time) (db : Db) : Prop where
  none_undone : undone scope now db = 0
  none_stray : stray scope now db = 0
  few : resolved scope now db ≤ 2 ^ 44
  exact : 200 * resolvedAndReopened scope now db % (2 * resolved scope now db) ≠ resolved scope now db

end DashboardService

namespace Sample

end Sample

namespace DashboardService

end DashboardService

end Cimp
