import Cimp.Issues.Changes

namespace Cimp

open Transaction

structure MergeIssueDto where
  canonicalIssueId : UuidText
  version : ℕ
deriving DecidableEq, Repr

structure MergeIds where
  link : Uuid
  duplicateComment : Uuid
  canonicalComment : Uuid
deriving DecidableEq, Repr

def IssueLink.insertOrIgnore (l : IssueLink) : Statement Db := fun db =>
  if db.issueLinks.any (fun m => m.sourceIssue = l.sourceIssue && m.targetIssue = l.targetIssue
      && m.type = l.type) then some db
  else some { db with issueLinks := db.issueLinks ++ [l] }

def copyWatchers (canonicalId duplicateId : Uuid) : Statement Db := fun db =>
  let wanted := (db.issueWatchers.filter fun w => w.issue = duplicateId).map fun w =>
    { w with issue := canonicalId }
  some { db with issueWatchers := db.issueWatchers ++ wanted.filter (fun w => w ∉ db.issueWatchers) }

namespace MergeService

def findOne (db : Db) (id : Uuid) : Option IssueEntity :=
  (db.issues.findOne id).map (Issue.toEntity { duplicateOf := true })

def duplicateComment (now : Time) (staff : AuthenticatedStaff) (id duplicateId : Uuid) : Comment where
  id := id
  issue := duplicateId
  author := staff.id
  authorType := .staff
  authorName := none
  body := "This issue was identified as a duplicate of an already-tracked problem. "
    ++ "It has been closed here, and you'll be notified on this issue when the underlying problem is resolved."
  visibility := .reporterVisible
  sourceLocale := none
  translations := []
  createdAt := now
  editedAt := none

def canonicalComment (now : Time) (staff : AuthenticatedStaff) (id canonicalId : Uuid)
    (duplicateRef : String) : Comment where
  id := id
  issue := canonicalId
  author := staff.id
  authorType := .staff
  authorName := none
  body := duplicateRef ++ " was merged into this issue as a duplicate."
  visibility := .internal
  sourceLocale := none
  translations := []
  createdAt := now
  editedAt := none

def others (staff : AuthenticatedStaff) (duplicate : IssueEntity) (canonicalId : Uuid) (ids : MergeIds)
    (now : Time) : List (Statement Db) :=
  [ IssueLink.insertOrIgnore ⟨ids.link, duplicate.id, canonicalId, .duplicates, staff.id, now⟩,
    copyWatchers canonicalId duplicate.id,
    (duplicateComment now staff ids.duplicateComment duplicate.id).insert,
    (canonicalComment now staff ids.canonicalComment canonicalId duplicate.referenceNo).insert ]

theorem keeps_insertOrIgnore {β : Type} {π : Db → β} (l : IssueLink)
    (h : ∀ db ls, π { db with issueLinks := ls } = π db) : Keeps π l.insertOrIgnore := by
  intro s t hq
  unfold IssueLink.insertOrIgnore at hq
  split at hq
  · cases hq; rfl
  · cases hq; exact h _ _

theorem keeps_copyWatchers {β : Type} {π : Db → β} (canonicalId duplicateId : Uuid)
    (h : ∀ db ws, π { db with issueWatchers := ws } = π db) :
    Keeps π (copyWatchers canonicalId duplicateId) := by
  intro s t hq
  cases hq
  exact h _ _

theorem keeps_insertComment {β : Type} {π : Db → β} (c : Comment)
    (h : ∀ db cs, π { db with comments := cs } = π db) : Keeps π c.insert := c.keeps_insert h

def close (now : Time) (duplicate : IssueEntity) (canonicalId : Uuid) : IssueEntity :=
  { duplicate with
    duplicateOf := some (some canonicalId)
    status := .closed
    closedAt := some (duplicate.closedAt.getD now) }

def mergeWrite (now : Time) (staff : AuthenticatedStaff) (duplicate : IssueEntity) (canonicalId : Uuid)
    (ids : MergeIds) : Write where
  issue := close now duplicate canonicalId
  others := others staff duplicate canonicalId ids
  audit := [
    { issueId := duplicate.id
      actorType := .staff
      actorId := staff.id
      action := "MERGED"
      field := "duplicateOf"
      newValue := canonicalId },
    { issueId := duplicate.id
      actorType := .staff
      actorId := staff.id
      action := "STATUS_CHANGED"
      field := "status"
      oldValue := duplicate.status.value
      newValue := IssueStatus.closed.value }]
  events := [.merged duplicate.id canonicalId duplicate.platform staff.id]
  frame := by
    intro now q hq
    simp only [others, List.mem_cons, List.not_mem_nil, or_false] at hq
    rcases hq with rfl | rfl | rfl | rfl
    · exact keeps_insertOrIgnore _ fun _ _ => rfl
    · exact keeps_copyWatchers _ _ fun _ _ => rfl
    · exact keeps_insertComment _ fun _ _ => rfl
    · exact keeps_insertComment _ fun _ _ => rfl

theorem keeps_others {β : Type} {π : Db → β} {staff : AuthenticatedStaff} {duplicate : IssueEntity} {canonicalId : Uuid}
    {ids : MergeIds} {now : Time} (hlinks : ∀ db issueLinks, π { db with issueLinks } = π db)
    (hwatchers : ∀ db issueWatchers, π { db with issueWatchers } = π db)
    (hduplicate : Keeps π (duplicateComment now staff ids.duplicateComment duplicate.id).insert)
    (hcanonical : Keeps π (canonicalComment now staff ids.canonicalComment canonicalId duplicate.referenceNo).insert) :
    ∀ q ∈ others staff duplicate canonicalId ids now, Keeps π q := by
  intro q hq
  simp only [others, List.mem_cons, List.not_mem_nil, or_false] at hq
  rcases hq with rfl | rfl | rfl | rfl
  · exact keeps_insertOrIgnore _ hlinks
  · exact keeps_copyWatchers _ _ hwatchers
  · exact hduplicate
  · exact hcanonical

def flatten (db : Db) (duplicate canonical : IssueEntity) : Except HttpException IssueEntity :=
  match canonical.duplicateOf with
  | some (some rootId) =>
    match findOne db rootId with
    | none => .error (.conflict "The chosen canonical issue is itself an unresolvable duplicate.")
    | some root => do
      require (root.duplicateOf = some none)
        (.conflict "The chosen canonical issue is itself an unresolvable duplicate.")
      require (root.id ≠ duplicate.id) (.unprocessableEntity "An issue cannot be merged into itself.")
      return root
  | _ => .ok canonical

def merge (now : Time) (db : Db) (staff : AuthenticatedStaff) (issueId : UuidText) (dto : MergeIssueDto)
    (ids : MergeIds) : Except HttpException Write := do
  -- `===` on the texts of the request
  require (issueId.text ≠ dto.canonicalIssueId.text) (.unprocessableEntity "An issue cannot be merged into itself.")
  match findOne db issueId.uuid, findOne db dto.canonicalIssueId.uuid with
  | some duplicate, some canonical => do
    require (duplicate.platform = canonical.platform)
      (.unprocessableEntity "Issues can only be merged within the same platform.")
    require (duplicate.duplicateOf = some none)
      (.conflict "This issue is already merged into another issue.")
    require (duplicate.status ≠ .closed) (.unprocessableEntity "A closed issue cannot be merged.")
    require (dto.version = duplicate.version)
      (.conflict "This issue was modified by someone else. Reload and try again.")
    let canonical ← flatten db duplicate canonical
    require (canonical.status ≠ .closed) (.unprocessableEntity "Cannot merge into a closed issue.")
    return mergeWrite now staff duplicate canonical.id ids
  | _, _ => .error (.notFound "Issue not found")

variable {now : Time} {db : Db} {staff : AuthenticatedStaff} {issueId : UuidText} {dto : MergeIssueDto}
  {ids : MergeIds} {w : Write}

theorem findOne_some {id : Uuid} {e : IssueEntity} (h : findOne db id = some e) :
    ∃ row, db.issues.findOne id = some row ∧ e = row.toEntity { duplicateOf := true } := by
  simp only [findOne, Option.map_eq_some_iff] at h
  obtain ⟨row, hrow, rfl⟩ := h
  exact ⟨row, hrow, rfl⟩

theorem flatten_ok {duplicate canonical root : IssueEntity}
    (h : flatten db duplicate canonical = .ok root) :
    (root = canonical ∧ ∀ r, canonical.duplicateOf ≠ some (some r)) ∨
      ∃ rootId, canonical.duplicateOf = some (some rootId) ∧ findOne db rootId = some root ∧
        root.duplicateOf = some none := by
  unfold flatten at h
  split at h
  · rename_i rootId hroot
    split at h
    · cases h
    · rename_i found hfound
      obtain ⟨_, hnull, h⟩ := bind_ok h
      obtain ⟨_, _, h⟩ := bind_ok h
      cases h
      exact .inr ⟨rootId, hroot, hfound, require_decide hnull⟩
  · rename_i hnone
    cases h
    exact .inl ⟨rfl, hnone⟩

theorem merge_ok (h : merge now db staff issueId dto ids = .ok w) :
    ∃ duplicate canonical root,
      db.issues.findOne issueId.uuid = some duplicate ∧ db.issues.findOne canonical.id = some canonical ∧
      db.issues.findOne root.id = some root ∧
      duplicate.platform = canonical.platform ∧ duplicate.duplicateOf = none ∧
      duplicate.status ≠ .closed ∧ dto.version = duplicate.version ∧
      root.duplicateOf = none ∧ root.status ≠ .closed ∧
      (root = canonical ∨ canonical.duplicateOf = some root.id) ∧
      w = mergeWrite now staff (duplicate.toEntity { duplicateOf := true }) root.id ids := by
  obtain ⟨_, _, h⟩ := bind_ok h
  split at h
  · rename_i duplicate canonical hduplicate hcanonical
    obtain ⟨_, hplatform, h⟩ := bind_ok h
    obtain ⟨_, hnull, h⟩ := bind_ok h
    obtain ⟨_, hopen, h⟩ := bind_ok h
    obtain ⟨_, hversion, h⟩ := bind_ok h
    obtain ⟨root, hroot, h⟩ := bind_ok h
    obtain ⟨_, hrootOpen, h⟩ := bind_ok h
    cases h
    obtain ⟨d, hd, rfl⟩ := findOne_some hduplicate
    obtain ⟨c, hc, rfl⟩ := findOne_some hcanonical
    have hplatform := require_decide hplatform
    have hnull : d.duplicateOf = none := Option.some.inj (require_decide hnull)
    have hopen := require_decide hopen
    have hversion := require_decide hversion
    have hrootOpen := require_decide hrootOpen
    have hcid : c.id = dto.canonicalIssueId.uuid := Table.findOne_key hc
    rcases flatten_ok hroot with ⟨rfl, hnone⟩ | ⟨rootId, hpoint, hfound, hrootNull⟩
    · have hcnull : c.duplicateOf = none := by
        cases hcd : c.duplicateOf with
        | none => rfl
        | some r => exact absurd (by simp [Issue.toEntity, hcd]) (hnone r)
      exact ⟨d, c, c, hd, hcid ▸ hc, hcid ▸ hc, hplatform, hnull, hopen, hversion, hcnull, hrootOpen, .inl rfl, rfl⟩
    · obtain ⟨r, hr, rfl⟩ := findOne_some hfound
      have hrid : r.id = rootId := Table.findOne_key hr
      have hpoint : c.duplicateOf = some rootId := Option.some.inj hpoint
      have hrootNull : r.duplicateOf = none := Option.some.inj hrootNull
      exact ⟨d, c, r, hd, hcid ▸ hc, hrid ▸ hr, hplatform, hnull, hopen, hversion, hrootNull,
        hrootOpen, .inr (hrid ▸ hpoint), rfl⟩
  · cases h

end MergeService

end Cimp
