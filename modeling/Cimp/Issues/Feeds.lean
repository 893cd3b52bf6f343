import Mathlib.Data.List.Perm.Basic
import Mathlib.Data.String.Basic
import Cimp.Issues.ListQuery
import Cimp.Lib.Paging

namespace Cimp

open ListQuery Paging

structure AuditRow extends AuditEvent where
  id : Uuid
deriving DecidableEq, Repr

structure AuditFilters where
  actorType : Option ActorType
  action : Option String
  issueId : Option Uuid
  fromDate : Option Time
  toDate : Option Time
  page : Option ℤ
  pageSize : Option ℤ
deriving DecidableEq, Repr

def AuditFilters.atPage (filters : AuditFilters) (k : ℕ) : AuditFilters := { filters with page := some (k + 1) }

structure Feed (α : Type) where
  data : List α
  total : ℕ
  page : ℕ
  pageSize : ℕ

/-- What the database picks for a `findAndCount` with `take` over a join: one query for the ids of the page, the
primary key after the keys asked for, and one for their rows, by these keys alone. -/
structure PickedRows {α : Type} (keys : List (Key α)) (primary : Key α) (rows : List α) (size skipped : ℕ) where
  ids : Window.Ordering (OrderBy (keys ++ [primary])) rows
  loaded : Window.Ordering (OrderBy keys) (Paging.page size skipped ids.list)

def findAndCount {α : Type} {keys : List (Key α)} {primary : Key α} {rows : List α} {page pageSize : ℕ}
    (picked : PickedRows keys primary rows pageSize (page - 1)) : Feed α := ⟨picked.loaded.list, rows.length, page, pageSize⟩

namespace AuditService

def page (filters : AuditFilters) : ℕ := (max 1 (filters.page.getD 1)).toNat

def pageSize (filters : AuditFilters) : ℕ := (min 200 (max 1 (filters.pageSize.getD 50))).toNat

def passes (filters : AuditFilters) (e : AuditRow) : Bool :=
  filters.actorType.all (fun a => e.actorType = a)
    && (truthy filters.action).all (fun a => e.action = a)
    && (truthy filters.issueId).all (fun i => e.issue = some i)
    && filters.fromDate.all (fun t => t ≤ e.createdAt)
    && filters.toDate.all (fun t => e.createdAt ≤ t)

def order : List (Key AuditRow) := [.desc fun e => e.createdAt]

def selected (events : Table AuditRow.id) (filters : AuditFilters) : List AuditRow := events.rows.filter (passes filters)

-- `relations: { issue: true }` is the join.
abbrev Picked (events : Table AuditRow.id) (filters : AuditFilters) : Type :=
  PickedRows order (.asc AuditRow.id) (selected events filters) (pageSize filters) (page filters - 1)

def query (events : Table AuditRow.id) (filters : AuditFilters) (picked : Picked events filters) : Feed AuditRow :=
  findAndCount picked

end AuditService

namespace ApiTokensService

def order : List (Key Issue) := [.desc fun i => i.createdAt]

def selected (db : Db) (platformId : Uuid) : List Issue := db.issues.rows.filter fun i => i.platform = platformId

def take (pageSize : ℤ) : ℕ := (min 100 (max 1 pageSize)).toNat

-- The platform of the `where` is the join.
abbrev Picked (db : Db) (platformId : Uuid) (page pageSize : ℤ) : Type :=
  PickedRows order (.asc Issue.id) (selected db platformId) (take pageSize) ((max 1 page).toNat - 1)

end ApiTokensService

end Cimp
