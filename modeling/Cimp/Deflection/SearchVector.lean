import Cimp.Entities
import Cimp.Lib.Execution
import Mathlib.Data.Rat.Init
import Mathlib.Logic.Function.Basic

namespace Cimp

open Execution

inductive Weight
  | a | b
deriving DecidableEq, Repr

/-- The text search of the database under its `english` configuration. -/
structure TextSearch where
  Vector : Type
  Query : Type
  toTsvector : String → Vector
  setweight : Vector → Weight → Vector
  append : Vector → Vector → Vector
  toTsquery : String → Query
  tsMatch : Vector → Query → Bool
  tsRank : Vector → Query → ℚ

namespace TextSearch

def weighed (ts : TextSearch) (description text : String) : ts.Vector :=
  ts.append (ts.setweight (ts.toTsvector description) .a) (ts.setweight (ts.toTsvector text) .b)

end TextSearch

def stringAgg : List String → String
  | [] => ""
  | [s] => s
  | s :: t :: rest => s ++ " " ++ stringAgg (t :: rest)

def bodies (db : Db) (issueId : Uuid) : List String :=
  (db.comments.rows.filter fun c => c.issue = issueId).map Comment.body

structure Indexed (ts : TextSearch) where
  db : Db
  searchVector : Uuid → Option ts.Vector

namespace Indexed

variable {ts : TextSearch}

def vectorOf (ts : TextSearch) (db : Db) (i : Issue) : ts.Vector :=
  ts.weighed i.description (stringAgg (bodies db i.id))

def refresh (issueId : Uuid) (x : Indexed ts) : Indexed ts :=
  match x.db.issues.findOne issueId with
  | none => x
  | some i => { x with searchVector := Function.update x.searchVector issueId (some (vectorOf ts x.db i)) }

def backfill (ts : TextSearch) (db : Db) : Indexed ts :=
  ⟨db, fun issueId => (db.issues.findOne issueId).map (vectorOf ts db)⟩

/-- A statement on one row of `issues` or `comments`, told apart by the columns it sets. -/
inductive RowWrite
  | insertIssue (i : Issue)
  | updateDescription (id : Uuid) (description : String)
  | updateIssue (id : Uuid) (f : Issue → Issue) (id_eq : ∀ r, (f r).id = r.id)
      (description_eq : ∀ r, (f r).description = r.description)
  | insertComment (c : Comment)
  | updateBody (id : Uuid) (body : String)
  | updateComment (id : Uuid) (f : Comment → Comment) (id_eq : ∀ c, (f c).id = c.id)
      (issue_eq : ∀ c, (f c).issue = c.issue) (body_eq : ∀ c, (f c).body = c.body)
  | deleteComment (id : Uuid)

def described (description : String) (r : Issue) : Issue := { r with description }

def rewritten (body : String) (c : Comment) : Comment := { c with body }

theorem described_id (description : String) (r : Issue) : (described description r).id = r.id := rfl

theorem rewritten_id (body : String) (c : Comment) : (rewritten body c).id = c.id := rfl

def refreshIssueOf (comment : Option Comment) (x : Indexed ts) : Indexed ts :=
  match comment with
  | none => x
  | some c => x.refresh c.issue

def write (x : Indexed ts) : RowWrite → Indexed ts
  | .insertIssue i =>
    match x.db.issues.insert i with
    | none => x
    | some issues => refresh i.id { x with db := { x.db with issues } }
  | .updateDescription id description =>
    refresh id { x with db := { x.db with
      issues := x.db.issues.update id (described description) (described_id description) } }
  | .updateIssue id f id_eq _ => { x with db := { x.db with issues := x.db.issues.update id f id_eq } }
  | .insertComment c =>
    match x.db.comments.insert c with
    | none => x
    | some comments => refresh c.issue { x with db := { x.db with comments } }
  | .updateBody id body =>
    refreshIssueOf (x.db.comments.findOne id) { x with db := { x.db with
      comments := x.db.comments.update id (rewritten body) (rewritten_id body) } }
  | .updateComment id f id_eq _ _ => { x with db := { x.db with comments := x.db.comments.update id f id_eq } }
  | .deleteComment id =>
    refreshIssueOf (x.db.comments.findOne id) { x with db := { x.db with comments := x.db.comments.delete id } }

def Maintained (x : Indexed ts) : Prop :=
  ∀ i row, x.db.issues.findOne i = some row → x.searchVector i = some (vectorOf ts x.db row)

theorem maintained_backfill (db : Db) : (backfill ts db).Maintained := by
  intro i row hrow
  change (db.issues.findOne i).map _ = _
  rw [show db.issues.findOne i = some row from hrow]
  rfl

theorem maintained_refresh {x : Indexed ts} {issueId : Uuid}
    (h : ∀ i row, i ≠ issueId → x.db.issues.findOne i = some row →
      x.searchVector i = some (vectorOf ts x.db row)) : (x.refresh issueId).Maintained := by
  intro i row hrow
  unfold refresh at hrow ⊢
  cases hissue : x.db.issues.findOne issueId with
  | none =>
    simp only [hissue] at hrow ⊢
    refine h i row ?_ hrow
    rintro rfl
    rw [hissue] at hrow
    cases hrow
  | some stored =>
    simp only [hissue] at hrow ⊢
    by_cases hi : i = issueId
    · subst hi
      rw [hissue] at hrow
      cases hrow
      exact Function.update_self ..
    · rw [Function.update_of_ne hi]
      exact h i row hi hrow

theorem bodies_map {db : Db} {rows : List Comment} {g : Comment → Comment} {i : Uuid}
    (hrows : rows = db.comments.rows.map g) (hissue : ∀ c, (g c).issue = c.issue)
    (hbody : ∀ c ∈ db.comments.rows, c.issue = i → (g c).body = c.body) :
    (rows.filter fun c => c.issue = i).map Comment.body = bodies db i := by
  have hsame : (fun c : Comment => decide (c.issue = i)) ∘ g = fun c => decide (c.issue = i) := by
    funext c
    simp only [Function.comp_apply, hissue]
  rw [hrows, List.filter_map, hsame, List.map_map, bodies]
  apply List.map_congr_left
  intro c hc
  obtain ⟨hmem, hi⟩ := List.mem_filter.mp hc
  exact hbody c hmem (of_decide_eq_true hi)

theorem bodies_insert {db : Db} {c : Comment} {comments : Table Comment.id} {i : Uuid}
    (h : db.comments.insert c = some comments) (hi : i ≠ c.issue) : bodies { db with comments } i = bodies db i := by
  have hne : c.issue ≠ i := fun he => hi he.symm
  simp [bodies, Table.rows_insert h, hne]

theorem bodies_update {db : Db} {id i : Uuid} {f : Comment → Comment} (id_eq : ∀ c, (f c).id = c.id)
    (issue_eq : ∀ c, (f c).issue = c.issue)
    (hbody : ∀ c, db.comments.findOne id = some c → c.issue = i → (f c).body = c.body) :
    bodies { db with comments := db.comments.update id f id_eq } i = bodies db i := by
  refine bodies_map (g := fun c => if c.id = id then f c else c) rfl (fun c => ?_) fun c hc hi => ?_
  · split
    · exact issue_eq c
    · rfl
  · split
    · rename_i hid
      exact hbody c (hid ▸ Table.findOne_of_mem hc) hi
    · rfl

theorem bodies_delete {db : Db} {id i : Uuid} (h : ∀ c, db.comments.findOne id = some c → c.issue ≠ i) :
    bodies { db with comments := db.comments.delete id } i = bodies db i := by
  simp only [bodies, Table.delete, List.filter_filter]
  congr 1
  apply List.filter_congr
  intro c hc
  by_cases hi : c.issue = i
  · have hid : c.id ≠ id := by
      rintro rfl
      exact h c (Table.findOne_of_mem hc) hi
    simp [hi, hid]
  · simp [hi]

theorem maintained_comments {x : Indexed ts} (hx : x.Maintained) {comments : Table Comment.id} {issueId : Uuid}
    (h : ∀ i, i ≠ issueId → bodies { x.db with comments } i = bodies x.db i) :
    (refresh issueId { x with db := { x.db with comments } }).Maintained := by
  apply maintained_refresh
  intro i row hi hrow
  have hid : row.id = i := Table.findOne_key hrow
  have hstored := hx i row hrow
  simp only [vectorOf, hid] at hstored ⊢
  rw [h i hi, hstored]

theorem maintained_issues {x : Indexed ts} (hx : x.Maintained) {issues : Table Issue.id} {issueId : Uuid}
    (h : ∀ i row, i ≠ issueId → issues.findOne i = some row → x.db.issues.findOne i = some row) :
    (refresh issueId { x with db := { x.db with issues } }).Maintained :=
  maintained_refresh fun i row hi hrow => hx i row (h i row hi hrow)

theorem write_maintained (x : Indexed ts) (w : RowWrite) (hx : x.Maintained) : (x.write w).Maintained := by
  cases w with
  | insertIssue i =>
    simp only [write]
    split
    · exact hx
    · rename_i issues hissues
      apply maintained_issues hx
      intro j row hj hrow
      rwa [Table.findOne_insert hissues, if_neg hj] at hrow
  | updateDescription id description =>
    apply maintained_issues hx
    intro j row hj hrow
    rwa [Table.findOne_update_ne _ _ _ hj] at hrow
  | updateIssue id f id_eq description_eq =>
    intro i row hrow
    simp only [write] at hrow ⊢
    rw [Table.findOne_update _ _ _ id_eq] at hrow
    split at hrow
    · obtain ⟨stored, hstored, rfl⟩ := Option.map_eq_some_iff.mp hrow
      have := hx i stored hstored
      simp only [vectorOf, id_eq, description_eq] at this ⊢
      exact this
    · exact hx i row hrow
  | insertComment c =>
    simp only [write]
    split
    · exact hx
    · rename_i comments hcomments
      exact maintained_comments hx fun i hi => bodies_insert hcomments hi
  | updateBody id body =>
    simp only [write]
    cases hc : x.db.comments.findOne id with
    | none =>
      intro i row hrow
      have hsame : bodies { x.db with comments := x.db.comments.update id (rewritten body) (rewritten_id body) }
          row.id = bodies x.db row.id :=
        bodies_update _ (fun _ => rfl) fun c hfound _ => by rw [hc] at hfound; cases hfound
      have := hx i row hrow
      simp only [refreshIssueOf, vectorOf, hsame] at this ⊢
      exact this
    | some c =>
      refine maintained_comments hx fun i hi => bodies_update _ (fun _ => rfl) fun d hd hissue => ?_
      rw [hc] at hd
      cases hd
      exact absurd hissue.symm hi
  | updateComment id f id_eq issue_eq body_eq =>
    intro i row hrow
    have hsame : bodies { x.db with comments := x.db.comments.update id f id_eq } row.id = bodies x.db row.id :=
      bodies_update id_eq issue_eq fun c _ _ => body_eq c
    have := hx i row hrow
    simp only [write, vectorOf, hsame] at this ⊢
    exact this
  | deleteComment id =>
    simp only [write]
    cases hc : x.db.comments.findOne id with
    | none =>
      intro i row hrow
      have hsame : bodies { x.db with comments := x.db.comments.delete id } row.id = bodies x.db row.id :=
        bodies_delete fun c hfound => by rw [hc] at hfound; cases hfound
      have := hx i row hrow
      simp only [refreshIssueOf, vectorOf, hsame] at this ⊢
      exact this
    | some c =>
      refine maintained_comments hx fun i hi => bodies_delete fun d hd hissue => ?_
      rw [hc] at hd
      cases hd
      exact hi hissue.symm

/-- The triggers keep the column true to the rows it is computed from, over any writes. -/
theorem always_maintained (db : Db) (ws : List RowWrite) :
    Always (@write ts) Maintained (backfill ts db) ws :=
  always_of_step (fun x w hx => write_maintained x w hx) (maintained_backfill db) ws

end Indexed

end Cimp
