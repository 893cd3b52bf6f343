import Cimp.Authz.Guard
import Cimp.Issues.Write

namespace Cimp

open Transaction

structure WatchersView where
  watching : Bool
  watchers : List (Uuid × String)
deriving DecidableEq, Repr

/-- A second row for the same watcher is a unique violation, which `watch` lets pass. -/
def IssueWatcher.insertOrIgnore (w : IssueWatcher) : Statement Db := fun db =>
  if (db.staffUsers.findOne w.staffUser).isNone then none
  else if w ∈ db.issueWatchers then some db
  else some { db with issueWatchers := db.issueWatchers ++ [w] }

theorem IssueWatcher.keeps_insertOrIgnore {β : Type} {π : Db → β} (h : ∀ db issueWatchers, π { db with issueWatchers } = π db)
    (w : IssueWatcher) : Keeps π w.insertOrIgnore := by
  intro s t hq
  unfold insertOrIgnore at hq
  split at hq
  · cases hq
  · split at hq
    · cases hq
      rfl
    · cases hq
      exact h s _

namespace WatchersService

def watcherRows (db : Db) (issueId : Uuid) : List StaffUser :=
  (db.issueWatchers.filter fun w => w.issue = issueId).filterMap fun w => db.staffUsers.findOne w.staffUser

def listForIssue (db : Db) (staff : AuthenticatedStaff) (issueId : Uuid) : WatchersView where
  watching := (watcherRows db issueId).any fun u => u.id = staff.id
  watchers := (watcherRows db issueId).map fun u => (u.id, u.name)

def watch (staff : AuthenticatedStaff) (issueId : Uuid) (db : Db) : Except HttpException (Db × WatchersView) :=
  match db.issues.findOne issueId with
  | none => .error (.notFound "Issue not found.")
  | some _ =>
    match IssueWatcher.insertOrIgnore ⟨issueId, staff.id⟩ db with
    | none => .error .internalServerError
    | some db => .ok (db, listForIssue db staff issueId)

theorem watch_ok {staff : AuthenticatedStaff} {issueId : Uuid} {db db' : Db} {view : WatchersView}
    (h : watch staff issueId db = .ok (db', view)) : IssueWatcher.insertOrIgnore ⟨issueId, staff.id⟩ db = some db' := by
  unfold watch at h
  split at h
  · cases h
  · split at h
    · cases h
    · rename_i hinsert
      cases h
      exact hinsert

def unwatch (staff : AuthenticatedStaff) (issueId : Uuid) (db : Db) : Db × WatchersView :=
  let db := { db with issueWatchers := db.issueWatchers.filter fun w => w ≠ ⟨issueId, staff.id⟩ }
  (db, listForIssue db staff issueId)

end WatchersService

end Cimp
