import Cimp.Issues.Matching
import Cimp.Lib.Paging
import Mathlib.Algebra.Order.Ring.Unbundled.Rat
import Mathlib.Data.String.Basic
import Mathlib.Order.WithBot

namespace Cimp

/-- The place in `issue_status_enum`. -/
def IssueStatus.place : IssueStatus → ℕ
  | new => 0
  | inProgress => 1
  | onHold => 2
  | resolved => 3
  | closed => 4
  | reopened => 5

/-- The place in `priority_enum`. -/
def Priority.place : Priority → ℕ
  | low => 0
  | medium => 1
  | high => 2
  | critical => 3

namespace ListQuery

open Jql Paging

def SortOrder.key {α β : Type} [LinearOrder β] (order : SortOrder) (f : α → β) : Key α :=
  match order with
  | asc => .asc f
  | desc => .desc f

def IssueSortField.key {ts : TextSearch} (order : SortOrder) : IssueSortField → Key (Row ts)
  | createdAt => order.key fun row => row.issue.createdAt
  | updatedAt => order.key fun row => row.issue.updatedAt
  | priority => order.key fun row => row.issue.priority.place
  | status => order.key fun row => row.issue.status.place

/-- `rank DESC`, where NULL comes first. -/
def rankKey (pg : Postgres) (tsq : String) : Key (Row pg.ts) :=
  .desc fun row => row.searchVector.elim (⊤ : WithTop ℚ) fun v => pg.ts.tsRank v (pg.ts.toTsquery tsq)

def idKey {ts : TextSearch} : Key (Row ts) := .asc fun row => row.issue.id

def orderBys (js : Runtime) (pg : Postgres) (dto : ListIssuesDto) : List (Key (Row pg.ts)) :=
  let tsq := (truthy dto.q).elim "" fun q => (searchParams js q).tsq
  if tsq ≠ "" then [rankKey pg tsq, dto.sort.key dto.order, idKey] else [dto.sort.key dto.order, idKey]

/-- What the database answers to an `ORDER BY`, for each one. -/
abbrev Choice (α : Type) := (keys : List (Key α)) → (rows : List α) → Window.Ordering (OrderBy keys) rows

inductive ListError
  | thrown (e : Thrown)
  | queryFailed
deriving DecidableEq, Repr

/-- The answer, with the rows in place of the items made of them one by one. -/
structure ListAnswer (ts : TextSearch) where
  data : List (Row ts)
  total : ℕ
  page : ℕ
  pageSize : ℕ

variable (js : Runtime) (pg : Postgres) (choice : Choice (Row pg.ts)) (x : Indexed pg.ts)
  (staff : AuthenticatedStaff) (dto : ListIssuesDto)

def selected (qb : Builder) : List (Row pg.ts) := (x.db.issues.rows.map (Row.of x)).filter fun row => qb.Selects pg row

def getManyAndCount (qb : Builder) : Except ListError (ListAnswer pg.ts) :=
  if qb.wheres.all (bindsText pg qb.env) then
    let rows := selected pg x qb
    .ok ⟨page dto.pageSize (dto.page - 1) (choice (orderBys js pg dto) rows).list, rows.length, dto.page, dto.pageSize⟩
  else .error .queryFailed

def list : Except ListError (ListAnswer pg.ts) :=
  match ScopeService.scopedPlatformIds staff with
  | .ids [] => .ok ⟨[], 0, dto.page, dto.pageSize⟩
  | scope =>
    match buildListQuery js staff dto scope with
    | .error e => .error (.thrown e)
    | .ok qb => getManyAndCount js pg choice x dto qb

def ListIssuesDto.atPage (k : ℕ) : ListIssuesDto := { dto with page := k + 1, page_pos := Nat.le_add_left 1 k }

/-- A scope of no platform is answered before anything is read. -/
def Answered : Prop := ScopeService.scopedPlatformIds staff = .ids [] ∨ Readable js pg dto

variable {js pg choice x staff dto}

theorem selected_nodup (x : Indexed pg.ts) (qb : Builder) : (selected pg x qb).Nodup := by
  have hids : ((x.db.issues.rows.map (Row.of x)).map fun row => row.issue.id).Nodup := by
    rw [List.map_map]
    exact x.db.issues.nodup
  exact hids.of_map.filter _

theorem eq_of_id {row row' : Row pg.ts} (h : ∃ issue ∈ x.db.issues.rows, row = Row.of x issue)
    (h' : ∃ issue ∈ x.db.issues.rows, row' = Row.of x issue) (hid : row.issue.id = row'.issue.id) : row = row' := by
  obtain ⟨issue, hissue, rfl⟩ := h
  obtain ⟨issue', hissue', rfl⟩ := h'
  rw [List.inj_on_of_nodup_map x.db.issues.nodup hissue hissue' hid]

theorem idKey_mem : idKey ∈ orderBys js pg dto := by
  unfold orderBys
  dsimp only
  split_ifs <;> simp

theorem list_of_query (choice : Choice (Row pg.ts)) (x : Indexed pg.ts)
    (hscope : ScopeService.scopedPlatformIds staff ≠ .ids []) :
    list js pg choice x staff dto =
      match buildListQuery js staff dto (ScopeService.scopedPlatformIds staff) with
      | .error e => .error (.thrown e)
      | .ok qb => getManyAndCount js pg choice x dto qb := by
  unfold list
  split
  · contradiction
  · rfl

theorem list_rows (h : Answered js pg staff dto) (x : Indexed pg.ts) :
    ∃ rows : List (Row pg.ts), rows.Nodup ∧ (∀ row, row ∈ rows ↔ Matches js pg x staff dto row) ∧
      ∀ choice k, list js pg choice x staff (dto.atPage k) =
        .ok ⟨page dto.pageSize k (choice (orderBys js pg dto) rows).list, rows.length, k + 1, dto.pageSize⟩ := by
  by_cases hscope : ScopeService.scopedPlatformIds staff = .ids []
  · refine ⟨[], List.nodup_nil, fun row => ?_, fun choice k => ?_⟩
    · refine iff_of_false List.not_mem_nil fun h => ?_
      obtain ⟨p, _, hp⟩ := h.scope [] hscope
      exact List.not_mem_nil hp
    · have hempty : (choice (orderBys js pg dto) []).list = [] := (choice _ _).perm.eq_nil
      rw [hempty, page, List.drop_nil, List.take_nil]
      simp [list, hscope, ListIssuesDto.atPage]
  · have hreadable := h.resolve_left hscope
    obtain ⟨filters, hparsed⟩ := hreadable.parsed
    obtain ⟨cs, hcs⟩ := exists_clauses hparsed.known js staff.id 0
    have hqb := hparsed.buildListQuery hcs (ScopeService.scopedPlatformIds staff)
    have hbinds := (binds_iff_readable hparsed hcs (ScopeService.scopedPlatformIds staff)).mpr hreadable
    let qb := Builder.of (queryFragments js dto (ScopeService.scopedPlatformIds staff) cs)
    refine ⟨selected pg x qb, selected_nodup x qb, fun row => ?_, fun choice k => ?_⟩
    · rw [selected, List.mem_filter, List.mem_map, decide_eq_true_eq]
      constructor
      · rintro ⟨⟨issue, hissue, rfl⟩, hselects⟩
        exact (selects_iff_matches hparsed hcs ⟨issue, hissue, rfl⟩).mp hselects
      · intro hm
        obtain ⟨issue, hissue, hrow⟩ := hm.stored
        exact ⟨⟨issue, hissue, hrow.symm⟩, (selects_iff_matches hparsed hcs hm.stored).mpr hm⟩
    · have hpage : buildListQuery js staff (dto.atPage k) (ScopeService.scopedPlatformIds staff) = _ := hqb
      rw [list_of_query choice x hscope, hpage]
      simp only [getManyAndCount, hbinds, if_true]
      rfl

theorem list_error (h : ¬ Answered js pg staff dto) (x : Indexed pg.ts) :
    ∃ e, ∀ choice k, list js pg choice x staff (dto.atPage k) = .error e := by
  obtain ⟨hscope, hreadable⟩ := not_or.mp h
  by_cases hparsed : ∃ filters, Parsed js dto filters
  · obtain ⟨filters, hparsed⟩ := hparsed
    obtain ⟨cs, hcs⟩ := exists_clauses hparsed.known js staff.id 0
    have hbinds := mt (binds_iff_readable hparsed hcs (ScopeService.scopedPlatformIds staff)).mp hreadable
    refine ⟨.queryFailed, fun choice k => ?_⟩
    have hpage : buildListQuery js staff (dto.atPage k) (ScopeService.scopedPlatformIds staff) = _ :=
      hparsed.buildListQuery hcs (ScopeService.scopedPlatformIds staff)
    rw [list_of_query choice x hscope, hpage]
    simp only [getManyAndCount, if_neg hbinds]
  · obtain ⟨e, he⟩ := buildListQuery_error (not_exists.mp hparsed) (ScopeService.scopedPlatformIds staff)
    refine ⟨.thrown e, fun choice k => ?_⟩
    have hpage : buildListQuery js staff (dto.atPage k) (ScopeService.scopedPlatformIds staff) = .error e := he
    rw [list_of_query choice x hscope, hpage]

theorem list_pages_partition (js : Runtime) (pg : Postgres) (x : Indexed pg.ts) (staff : AuthenticatedStaff)
    (dto : ListIssuesDto) :
    (Answered js pg staff dto →
      ∃ ordered : List (Row pg.ts), ordered.Nodup ∧ (∀ row, row ∈ ordered ↔ Matches js pg x staff dto row) ∧
        ordered.Pairwise (OrderBy (orderBys js pg dto)) ∧
        (∀ a ∈ ordered, ∀ b ∈ ordered, OrderBy (orderBys js pg dto) a b → OrderBy (orderBys js pg dto) b a → a = b) ∧
        ∀ choices : ℕ → Choice (Row pg.ts), ∃ answers : ℕ → ListAnswer pg.ts,
          (∀ k, list js pg (choices k) x staff (dto.atPage k) = .ok (answers k) ∧ (answers k).total = ordered.length) ∧
          (List.range (pageCount ordered.length dto.pageSize)).flatMap (fun k => (answers k).data) = ordered) ∧
    (¬ Answered js pg staff dto → ∃ e, ∀ choice k, list js pg choice x staff (dto.atPage k) = .error e) := by
  refine ⟨fun hanswered => ?_, fun h => list_error h x⟩
  obtain ⟨rows, hnodup, hmatches, hlist⟩ := list_rows hanswered x
  have hanti : ∀ a ∈ rows, ∀ b ∈ rows, OrderBy (orderBys js pg dto) a b → OrderBy (orderBys js pg dto) b a → a = b := by
    intro a ha b hb hab hba
    have hid : a.issue.id ≤ b.issue.id := OrderBy.le_of_mem idKey_mem hab hba
    have hid' : b.issue.id ≤ a.issue.id := OrderBy.le_of_mem idKey_mem hba hab
    exact eq_of_id ((hmatches a).mp ha).stored ((hmatches b).mp hb).stored (le_antisymm hid hid')
  let ordered := Window.Ordering.sort (OrderBy (orderBys js pg dto)) rows
  refine ⟨ordered.list, ordered.perm.nodup_iff.mpr hnodup, fun row => ordered.mem_list.trans (hmatches row),
    ordered.sorted, ?_, ?_⟩
  · intro a ha b hb
    exact hanti a (ordered.mem_list.mp ha) b (ordered.mem_list.mp hb)
  · intro choices
    refine ⟨_, fun k => ⟨hlist (choices k) k, ordered.perm.length_eq.symm⟩, ?_⟩
    rw [ordered.perm.length_eq]
    exact pages_of_antisymm hanti dto.pageSize_pos (fun k => choices k (orderBys js pg dto) rows) ordered

namespace Sample

def issueNamed (id : Uuid) (status : IssueStatus) : Issue :=
  { DeflectionService.issueOf Cimp.Sample.context "It does not print" with id := id, status := status }

/-- Three new issues of one moment, and one that is resolved. -/
def queue : Indexed server.ts :=
  ⟨{ Db.empty with
      issues := ⟨[issueNamed "C" .new, issueNamed "D" .resolved, issueNamed "A" .new, issueNamed "B" .new], by decide⟩
      platforms := ⟨[⟨"P", "web", "Web", .active⟩], by simp⟩ }, fun _ => none⟩

def observer : AuthenticatedStaff := { agent with roles := [⟨.watcher, some "P"⟩] }

def newIssues : ListIssuesDto :=
  { listDto none with
    status := some .new
    pageSize := 2
    pageSize_pos := by decide
    pageSize_le := by decide }

def newRows : List (Row server.ts) := ["A", "B", "C"].map fun id => Row.of queue (issueNamed id .new)

theorem newIssues_filters : truthy newIssues.platformId = none ∧ truthy newIssues.assigneeId = none ∧
    truthy newIssues.createdFrom = none ∧ truthy newIssues.createdTo = none ∧ truthy newIssues.jql = none ∧
    truthy newIssues.q = none := ⟨rfl, rfl, rfl, rfl, rfl, rfl⟩

theorem newRows_sorted : newRows.Pairwise (OrderBy (orderBys Jql.Sample.ascii server newIssues)) := by decide

theorem mem_newRows {row : Row server.ts} : row ∈ newRows ↔ Matches Jql.Sample.ascii server queue observer newIssues row := by
  obtain ⟨hplatform, hassignee, hfrom, hto, hjql, hq⟩ := newIssues_filters
  constructor
  · intro hrow
    obtain ⟨id, hid, rfl⟩ := List.mem_map.mp hrow
    have hstored : issueNamed id .new ∈ queue.db.issues.rows := by
      simp only [List.mem_cons, List.not_mem_nil, or_false] at hid
      rcases hid with rfl | rfl | rfl <;> simp [queue]
    refine ⟨⟨_, hstored, rfl⟩, fun platforms hids => ?_, by simp [hplatform], fun s hs => ?_,
      fun p hp => ?_, by simp [hassignee], by simp [hfrom], by simp [hto], by simp [hjql], by simp [hq]⟩
    · have hscope : ScopeService.scopedPlatformIds observer = .ids ["P"] := by decide
      rw [hscope] at hids
      cases hids
      exact ⟨⟨"P", "web", "Web", .active⟩, rfl, List.mem_cons_self⟩
    · cases hs
      rfl
    · cases hp
  · intro hm
    obtain ⟨issue, hissue, rfl⟩ := hm.stored
    have hnew : issue.status = .new := hm.status .new rfl
    simp only [queue, List.mem_cons, List.not_mem_nil, or_false] at hissue
    rcases hissue with rfl | rfl | rfl | rfl
    · simp [newRows]
    · cases hnew
    · simp [newRows]
    · simp [newRows]

end Sample

theorem list_pages_partition_ties :
    (∀ choices : ℕ → Choice (Row Sample.server.ts), ∃ answers : ℕ → ListAnswer Sample.server.ts,
      (∀ k, list Sample.ascii Sample.server (choices k) Sample.queue Sample.observer (Sample.newIssues.atPage k) =
        .ok (answers k) ∧ (answers k).total = 3) ∧
      (List.range 2).flatMap (fun k => (answers k).data) = Sample.newRows) ∧
    ∃ e, ∀ choice k, list Sample.ascii Sample.server choice Sample.queue Sample.observer
      ({ Sample.newIssues with createdFrom := some "2026-02-30" }.atPage k) = .error e := by
  have hscope : ScopeService.scopedPlatformIds Sample.observer ≠ .ids [] := by decide
  obtain ⟨_, _, hfrom, hto, hjql, _⟩ := Sample.newIssues_filters
  refine ⟨fun choices => ?_, ?_⟩
  · obtain ⟨ordered, hnodup, hmem, hsorted, hanti, hpages⟩ :=
      (list_pages_partition Sample.ascii Sample.server Sample.queue Sample.observer Sample.newIssues).1
        (Or.inr ⟨by simp [hjql], by simp [hfrom], by simp [hto]⟩)
    have hperm : ordered.Perm Sample.newRows := by
      have hids : (Sample.newRows.map fun row => row.issue.id).Nodup := by decide
      rw [List.perm_ext_iff_of_nodup hnodup hids.of_map]
      exact fun row => (hmem row).trans Sample.mem_newRows.symm
    obtain rfl : ordered = Sample.newRows :=
      hperm.eq_of_pairwise (fun a b ha hb => hanti a ha b (hperm.mem_iff.mpr hb)) hsorted Sample.newRows_sorted
    exact hpages choices
  · refine (list_pages_partition Sample.ascii Sample.server Sample.queue Sample.observer _).2 ?_
    rintro (hnone | hreadable)
    · exact hscope hnone
    · exact absurd (hreadable.createdFrom "2026-02-30" rfl) (by decide)

end ListQuery

end Cimp
