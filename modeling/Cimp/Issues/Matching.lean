import Cimp.Authz.ReadPaths
import Cimp.Issues.Narrowing

namespace Cimp

theorem IssueStatus.value_inj {s t : IssueStatus} : s.value = t.value ↔ s = t := by
  cases s <;> cases t <;> decide

namespace ListQuery

open Jql Sql

/-- The full-text terms or the reference number of the search box. -/
def Searched (js : Runtime) (pg : Postgres) (q : String) (row : Row pg.ts) : Prop :=
  let params := searchParams js q
  pg.ilike row.issue.referenceNo params.likeRef = true ∨
    params.tsq ≠ "" ∧ ∃ v, row.searchVector = some v ∧ pg.ts.tsMatch v (pg.ts.toTsquery params.tsq) = true

/-- The issue passes the scope of the staff member and every filter of the request. -/
structure Matches (js : Runtime) (pg : Postgres) (x : Indexed pg.ts) (staff : AuthenticatedStaff) (dto : ListIssuesDto)
    (row : Row pg.ts) : Prop where
  stored : ∃ issue ∈ x.db.issues.rows, row = Row.of x issue
  scope : ∀ platforms, ScopeService.scopedPlatformIds staff = .ids platforms →
    ∃ p, row.platform = some p ∧ p.id ∈ platforms
  platformId : ∀ id, truthy dto.platformId = some id → ∃ p, row.platform = some p ∧ p.id = id
  status : ∀ s, dto.status = some s → row.issue.status = s
  priority : ∀ p, dto.priority = some p → row.issue.priority = p
  assigneeId : ∀ id, truthy dto.assigneeId = some id → ∃ a, row.assignee = some a ∧ a.id = id
  createdFrom : ∀ v, truthy dto.createdFrom = some v → ∃ t, pg.timestamptz v = some t ∧ t ≤ row.issue.createdAt
  createdTo : ∀ v, truthy dto.createdTo = some v → ∃ t, pg.timestamptz v = some t ∧ row.issue.createdAt ≤ t
  jql : ∀ jql filters, truthy dto.jql = some jql → parseJql js jql = .ok filters →
    ∀ f ∈ filters, Asks pg js staff.id row f
  q : ∀ q, truthy dto.q = some q → Searched js pg q row

def DatesRead (pg : Postgres) (f : JqlFilter) : Prop :=
  f.field ∈ ["created", "updated"] → (pg.timestamptz (f.values.headD "")).isSome = true

/-- The parser reads the query, and the database its dates. -/
structure Readable (js : Runtime) (pg : Postgres) (dto : ListIssuesDto) : Prop where
  jql : ∀ jql, truthy dto.jql = some jql → ∃ filters, parseJql js jql = .ok filters ∧ ∀ f ∈ filters, DatesRead pg f
  createdFrom : ∀ v, truthy dto.createdFrom = some v → (pg.timestamptz v).isSome = true
  createdTo : ∀ v, truthy dto.createdTo = some v → (pg.timestamptz v).isSome = true

variable {js : Runtime} {pg : Postgres} {x : Indexed pg.ts} {staff : AuthenticatedStaff} {dto : ListIssuesDto}
  {row : Row pg.ts} {env : Env} {c : Fragment} {filters : List JqlFilter} {cs : List Fragment} {n : ℕ}

theorem passes_of_conjunct {t : Truth} (h : Conjunct (Predicate.truth pg env row) c.sql t) :
    c.Passes pg env row ↔ bindsText pg env c.sql = true ∧ t = some true := and_congr_right' h.holds_iff

theorem passes_atom {p : Predicate} {params : List (String × Param)} :
    (⟨[.atom p], params⟩ : Fragment).Passes pg env row ↔ p.binds pg env = true ∧ p.truth pg env row = some true := by
  rw [passes_of_conjunct (.atom _ p)]
  simp [bindsText]

theorem scopeFragment_passes {platforms : List Uuid} (hc : scopeFragment (.ids platforms) = some c)
    (h : Agrees env c) : c.Passes pg env row ↔ ∃ p, row.platform = some p ∧ p.id ∈ platforms := by
  cases hc
  have henv : env "scopeIds" = some (.list platforms) := h _ List.mem_cons_self
  rw [passes_atom, truth_isIn pg row henv, and_iff_right (by simp [Predicate.binds, Env.list, henv])]
  exact exists_map_eq

theorem eqFragment_passes {column : Column} {name v : String} (h : Agrees env (eqFragment column name v)) :
    (eqFragment column name v).Passes pg env row ↔ ∃ s, column.value row = some s ∧ s = v := by
  have henv : env name = some (.text v) := h _ List.mem_cons_self
  rw [eqFragment, passes_atom, truth_eq pg row henv, and_iff_right (by simp [Predicate.binds, Env.text, henv])]
  rfl

theorem timeFragment_passes {op : JqlOp} {name v : String} (h : Agrees env (timeFragment op name v)) :
    (timeFragment op name v).Passes pg env row ↔ timeAsks pg row.issue.createdAt op v := by
  have henv : env name = some (.text v) := h _ List.mem_cons_self
  rw [timeFragment, passes_atom, time_passes pg row henv]
  rfl

theorem searchFragment_passes {q : String} (h : Agrees env (searchFragment js q)) :
    (searchFragment js q).Passes pg env row ↔ Searched js pg q row := by
  unfold searchFragment at h ⊢
  unfold Searched
  generalize searchParams js q = params at h ⊢
  obtain ⟨tsq, likeRef⟩ := params
  dsimp only at h ⊢
  by_cases htsq : tsq ≠ ""
  · simp only [if_pos htsq] at h ⊢
    have hlike : env "likeRef" = some (.text likeRef) := h ("likeRef", .text likeRef) List.mem_cons_self
    have hterms : env "tsq" = some (.text tsq) := h ("tsq", .text tsq) (List.mem_cons_of_mem _ List.mem_cons_self)
    rw [passes_of_conjunct (.paren (meaning_or _ _ _)), Truth.or_eq_true, truth_ilike pg row hlike,
      truth_tsMatch pg row hterms]
    simp [bindsText, Predicate.binds, Env.text, hlike, hterms, Column.value, htsq]
  · simp only [if_neg htsq] at h ⊢
    have hlike : env "likeRef" = some (.text likeRef) := h ("likeRef", .text likeRef) List.mem_cons_self
    rw [passes_of_conjunct (.paren (Conjunct.atom _ _).meaning_eq), truth_ilike pg row hlike]
    simp [bindsText, Predicate.binds, Env.text, hlike, Column.value, htsq]

theorem forall_option_map {α : Type} {o : Option α} {g : α → Fragment} {P : Fragment → Prop} :
    (∀ c ∈ o.map g, P c) ↔ ∀ a, o = some a → P (g a) := by
  cases o <;> simp

theorem forall_reduceOption {α : Type} {l : List (Option α)} {P : α → Prop} :
    (∀ a ∈ l.reduceOption, P a) ↔ ∀ o ∈ l, ∀ a ∈ o, P a := by
  simp only [List.reduceOption_mem_iff]
  constructor
  · rintro h o ho a rfl
    exact h a ho
  · exact fun h a ha => h _ ha a rfl

theorem forall_plainFragments {scope : PlatformScope} {P : Fragment → Prop} :
    (∀ c ∈ plainFragments dto scope, P c) ↔
      (∀ c ∈ scopeFragment scope, P c) ∧
        (∀ id, truthy dto.platformId = some id → P (eqFragment .platformId "platformId" id)) ∧
        (∀ s, dto.status = some s → P (eqFragment .status "status" s.value)) ∧
        (∀ p, dto.priority = some p → P (eqFragment .priority "priority" p.value)) ∧
        (∀ id, truthy dto.assigneeId = some id → P (eqFragment .assigneeId "assigneeId" id)) ∧
        (∀ v, truthy dto.createdFrom = some v → P (timeFragment (.compare .ge) "from" v)) ∧
        ∀ v, truthy dto.createdTo = some v → P (timeFragment (.compare .le) "to" v) := by
  rw [plainFragments, forall_reduceOption]
  simp only [List.forall_mem_cons, forall_option_map, List.not_mem_nil, false_imp_iff, implies_true, and_true]

theorem timeAsks_ge {t : Time} {v : String} :
    timeAsks pg t (.compare .ge) v ↔ ∃ u, pg.timestamptz v = some u ∧ u ≤ t := by simp [timeAsks]

theorem timeAsks_le {t : Time} {v : String} :
    timeAsks pg t (.compare .le) v ↔ ∃ u, pg.timestamptz v = some u ∧ t ≤ u := by simp [timeAsks]

section Binding

theorem eqFragment_binds {column : Column} {name v : String} (h : Agrees env (eqFragment column name v)) :
    bindsText pg env (eqFragment column name v).sql = true := by
  have henv : env name = some (.text v) := h _ List.mem_cons_self
  simp [eqFragment, bindsText, Predicate.binds, Env.text, henv]

theorem scopeFragment_binds {scope : PlatformScope} (hc : scopeFragment scope = some c) (h : Agrees env c) :
    bindsText pg env c.sql = true := by
  cases scope with
  | all => cases hc
  | ids platforms =>
    cases hc
    have henv : env "scopeIds" = some (.list platforms) := h _ List.mem_cons_self
    simp [bindsText, Predicate.binds, Env.list, henv]

theorem compare_binds {column : TimeColumn} {op : JqlOp} {name v : String} (henv : env name = some (.text v))
    (hop : op ∈ [.compare .ge, .compare .le]) :
    bindsText pg env [.atom (.compare column op name)] = true ↔ (pg.timestamptz v).isSome = true := by
  have hop' : op = .compare .ge ∨ op = .compare .le := by simpa using hop
  simp [bindsText, Predicate.binds, Env.text, henv, hop']

theorem searchFragment_binds {q : String} (h : Agrees env (searchFragment js q)) :
    bindsText pg env (searchFragment js q).sql = true := by
  unfold searchFragment at h ⊢
  generalize searchParams js q = params at h ⊢
  obtain ⟨tsq, likeRef⟩ := params
  dsimp only at h ⊢
  by_cases htsq : tsq ≠ ""
  · simp only [if_pos htsq] at h ⊢
    have hlike : env "likeRef" = some (.text likeRef) := h ("likeRef", .text likeRef) List.mem_cons_self
    have hterms : env "tsq" = some (.text tsq) := h ("tsq", .text tsq) (List.mem_cons_of_mem _ List.mem_cons_self)
    simp [bindsText, Predicate.binds, Env.text, hlike, hterms]
  · simp only [if_neg htsq] at h ⊢
    have hlike : env "likeRef" = some (.text likeRef) := h ("likeRef", .text likeRef) List.mem_cons_self
    simp [bindsText, Predicate.binds, Env.text, hlike]

variable {staffId : Uuid} {o : Operand} {op : JqlOp} {values lower : List String}

theorem comparedClause_binds (h : Agrees env (comparedClause o op values n)) :
    bindsText pg env (comparedClause o op values n).sql = true := by
  cases op with
  | isIn =>
    have henv : env (paramName n) = some (.list values) := h _ List.mem_cons_self
    simp [comparedClause, bindsText, Predicate.binds, Env.list, henv]
  | compare comparison =>
    cases comparison <;>
      have henv : env (paramName n) = some (.text (values.headD "")) := h _ List.mem_cons_self <;>
      simp [comparedClause, bindsText, Predicate.binds, Env.text, henv]

theorem assigneeEquality_binds {v : String} (h : Agrees env (assigneeEquality staffId op v n)) :
    bindsText pg env (assigneeEquality staffId op v n).sql = true := by
  unfold assigneeEquality at h ⊢
  split_ifs at h ⊢
  all_goals first | rfl | simp_all [Agrees, bindsText, Predicate.binds, Env.text]

theorem assigneeClause_binds (h : Agrees env (assigneeClause staffId op values lower n)) :
    bindsText pg env (assigneeClause staffId op values lower n).sql = true := by
  cases op with
  | isIn =>
    have henv : env (paramName n) = some (.list lower) := h _ List.mem_cons_self
    simp [assigneeClause, bindsText, Predicate.binds, Env.list, henv]
  | compare comparison =>
    cases comparison with
    | contains =>
      have henv : env (paramName n) = some (.text (like (values.headD ""))) := h _ List.mem_cons_self
      simp [assigneeClause, bindsText, Predicate.binds, Env.text, henv]
    | eq => exact assigneeEquality_binds h
    | ne => exact assigneeEquality_binds h
    | ge => exact assigneeEquality_binds h
    | le => exact assigneeEquality_binds h

theorem reporterClause_binds (h : Agrees env (reporterClause op values lower n)) :
    bindsText pg env (reporterClause op values lower n).sql = true := by
  cases op with
  | isIn =>
    have henv : env (paramName n) = some (.text (lower.headD "")) := h _ List.mem_cons_self
    simp [reporterClause, bindsText, Predicate.binds, Env.text, henv]
  | compare comparison =>
    cases comparison <;>
      have henv := h _ List.mem_cons_self <;>
      simp [reporterClause, bindsText, Predicate.binds, Env.text, henv]

theorem labelClause_binds (h : Agrees env (labelClause op lower n)) :
    bindsText pg env (labelClause op lower n).sql = true := by
  have henv : env (paramName n) = some (.list lower) := h _ List.mem_cons_self
  unfold labelClause
  by_cases hop : op = .compare .ne <;> simp [hop, bindsText, Predicate.binds, Env.list, henv]

theorem textClause_binds (h : Agrees env (textClause js values n)) :
    bindsText pg env (textClause js values n).sql = true := by
  unfold textClause at h ⊢
  by_cases htsq : buildPrefixTsQuery js.toLowerCase (values.headD "") ≠ ""
  · simp only [if_pos htsq] at h ⊢
    have hlike := h _ List.mem_cons_self
    have hterms := h _ (List.mem_cons_of_mem _ List.mem_cons_self)
    simp [bindsText, Predicate.binds, Env.text, hlike, hterms]
  · simp only [if_neg htsq] at h ⊢
    have hlike := h _ List.mem_cons_self
    simp [bindsText, Predicate.binds, Env.text, hlike]

theorem timeClause_binds {column : TimeColumn} (h : Agrees env (timeClause column op values n))
    (hop : op ∈ [.compare .ge, .compare .le]) :
    bindsText pg env (timeClause column op values n).sql = true ↔ (pg.timestamptz (values.headD "")).isSome = true :=
  compare_binds (h (paramName n, .text (values.headD "")) List.mem_cons_self) hop

theorem jqlClause_binds {f : JqlFilter} {spec : FieldSpec} (hdoc : Documented js spec f)
    (hc : jqlClause js staffId n f = .ok c) (h : Agrees env c) : bindsText pg env c.sql = true ↔ DatesRead pg f := by
  obtain ⟨field, op, values⟩ := f
  have hfield := mem_fields hdoc.field
  simp only [List.mem_cons, List.not_mem_nil, or_false] at hfield
  rcases hfield with rfl | rfl | rfl | rfl | rfl | rfl | rfl | rfl | rfl <;> cases hc
  · exact iff_of_true (comparedClause_binds h) (by simp [DatesRead])
  · exact iff_of_true (comparedClause_binds h) (by simp [DatesRead])
  · exact iff_of_true (comparedClause_binds h) (by simp [DatesRead])
  · exact iff_of_true (assigneeClause_binds h) (by simp [DatesRead])
  · exact iff_of_true (reporterClause_binds h) (by simp [DatesRead])
  · exact iff_of_true (labelClause_binds h) (by simp [DatesRead])
  · have hop : op ∈ [.compare .ge, .compare .le] := by
      have hspec := hdoc.op
      rwa [← Option.some.inj hdoc.field] at hspec
    rw [timeClause_binds h hop]
    simp [DatesRead]
  · have hop : op ∈ [.compare .ge, .compare .le] := by
      have hspec := hdoc.op
      rwa [← Option.some.inj hdoc.field] at hspec
    rw [timeClause_binds h hop]
    simp [DatesRead]
  · exact iff_of_true (textClause_binds h) (by simp [DatesRead])

end Binding

/-- What the parser makes of the request. -/
def Parsed (js : Runtime) (dto : ListIssuesDto) (filters : List JqlFilter) : Prop :=
  match truthy dto.jql with
  | none => filters = []
  | some jql => parseJql js jql = .ok filters

theorem Parsed.documented (h : Parsed js dto filters) : ∀ f ∈ filters, ∃ spec, Documented js spec f := by
  unfold Parsed at h
  split at h
  · rw [h]
    exact fun _ hmem => absurd hmem List.not_mem_nil
  · exact (parseJql_eq_ok.mp h).documented.2

theorem Parsed.known (h : Parsed js dto filters) : Known filters := by
  intro f hf
  obtain ⟨spec, hspec⟩ := h.documented f hf
  exact ⟨spec, hspec.field⟩

theorem Parsed.buildListQuery (h : Parsed js dto filters) (hcs : Clauses js staff.id 0 filters cs)
    (scope : PlatformScope) :
    ListQuery.buildListQuery js staff dto scope = .ok (Builder.of (queryFragments js dto scope cs)) := by
  unfold Parsed at h
  split at h
  · rename_i hjql
    cases h
    cases hcs
    exact buildListQuery_of_none hjql
  · rename_i jql hjql
    exact buildListQuery_of_clauses hjql h hcs

theorem Parsed.forall_iff (h : Parsed js dto filters) {P : JqlFilter → Prop} :
    (∀ f ∈ filters, P f) ↔
      ∀ jql filters', truthy dto.jql = some jql → parseJql js jql = .ok filters' → ∀ f ∈ filters', P f := by
  unfold Parsed at h
  split at h
  · rename_i hjql
    simp [h, hjql]
  · rename_i jql hjql
    refine ⟨?_, fun hall => hall jql filters hjql h⟩
    intro hall jql' filters' hjql' hparse
    obtain rfl := Option.some.inj (hjql.symm.trans hjql')
    obtain rfl := Except.ok.inj (h.symm.trans hparse)
    exact hall

theorem Parsed.exists_iff (h : Parsed js dto filters) {P : JqlFilter → Prop} :
    (∀ f ∈ filters, P f) ↔
      ∀ jql, truthy dto.jql = some jql → ∃ filters', parseJql js jql = .ok filters' ∧ ∀ f ∈ filters', P f := by
  unfold Parsed at h
  split at h
  · rename_i hjql
    simp [h, hjql]
  · rename_i jql hjql
    constructor
    · intro hall jql' hjql'
      obtain rfl := Option.some.inj (hjql.symm.trans hjql')
      exact ⟨filters, h, hall⟩
    · intro hall
      obtain ⟨filters', hparse, hall⟩ := hall jql hjql
      obtain rfl := Except.ok.inj (h.symm.trans hparse)
      exact hall

theorem buildListQuery_error (h : ∀ filters, ¬ Parsed js dto filters) (scope : PlatformScope) :
    ∃ e, buildListQuery js staff dto scope = .error e := by
  cases hjql : truthy dto.jql with
  | none =>
    refine absurd ?_ (h [])
    rw [Parsed, hjql]
  | some jql =>
    cases hparse : parseJql js jql with
    | ok filters =>
      refine absurd ?_ (h filters)
      rw [Parsed, hjql]
      exact hparse
    | error e =>
      refine ⟨e, ?_⟩
      rw [buildListQuery, withJql, hjql]
      simp only [hparse]
      rfl

theorem clauses_forall (hdoc : ∀ f ∈ filters, ∃ spec, Documented js spec f) {staffId : Uuid}
    (h : Clauses js staffId n filters cs) {P : Fragment → Prop} {Q : JqlFilter → Prop}
    (hclause : ∀ f spec n c, Documented js spec f → jqlClause js staffId n f = .ok c → c ∈ cs → (P c ↔ Q f)) :
    (∀ c ∈ cs, P c) ↔ ∀ f ∈ filters, Q f := by
  induction h with
  | nil => simp
  | @cons n f filters c cs hc _ ih =>
    obtain ⟨⟨spec, hf⟩, hrest⟩ := List.forall_mem_cons.mp hdoc
    rw [List.forall_mem_cons, List.forall_mem_cons, hclause f spec n c hf hc List.mem_cons_self]
    have htail := ih hrest fun f spec n c hf hc hmem => hclause f spec n c hf hc (List.mem_cons_of_mem _ hmem)
    rw [htail]

section Query

theorem queryFragments_agrees (h : Parsed js dto filters) (hcs : Clauses js staff.id 0 filters cs)
    (scope : PlatformScope) :
    ∀ c ∈ queryFragments js dto scope cs, Agrees (Builder.of (queryFragments js dto scope cs)).env c := by
  intro c hc
  exact agrees_of_nodup (queryFragments_nodup js dto scope (clauses_nodup h.known hcs) (clauses_notMem h.known hcs)) hc

theorem forall_queryFragments {scope : PlatformScope} {P : Fragment → Prop} :
    (∀ c ∈ queryFragments js dto scope cs, P c) ↔
      (∀ c ∈ plainFragments dto scope, P c) ∧ (∀ c ∈ cs, P c) ∧ ∀ q, truthy dto.q = some q → P (searchFragment js q) := by
  rw [queryFragments, List.forall_mem_append, List.forall_mem_append, List.forall_mem_map]
  simp

/-- The WHERE clause selects the stored rows that the request asks for. -/
theorem selects_iff_matches (h : Parsed js dto filters) (hcs : Clauses js staff.id 0 filters cs)
    (hrow : ∃ issue ∈ x.db.issues.rows, row = Row.of x issue) :
    (Builder.of (queryFragments js dto (ScopeService.scopedPlatformIds staff) cs)).Selects pg row ↔
      Matches js pg x staff dto row := by
  obtain ⟨hplain, hclauses, hsearch⟩ :=
    forall_queryFragments.mp (queryFragments_agrees h hcs (ScopeService.scopedPlatformIds staff))
  obtain ⟨hscope, hplatform, hstatus, hpriority, hassignee, hfrom, hto⟩ := forall_plainFragments.mp hplain
  rw [selects_iff_passes (queryFragments_sound js dto _ (fragments_sound h.known hcs)), forall_queryFragments,
    forall_plainFragments]
  generalize (Builder.of (queryFragments js dto (ScopeService.scopedPlatformIds staff) cs)).env = env at *
  have hclause : (∀ c ∈ cs, c.Passes pg env row) ↔ ∀ f ∈ filters, Asks pg js staff.id row f := by
    apply clauses_forall h.documented hcs
    intro f spec n c hdoc hc hmem
    exact (means_of_ok ⟨spec, hdoc.field⟩ hc).passes pg row env (hclauses c hmem)
  have hscope' : (∀ c ∈ scopeFragment (ScopeService.scopedPlatformIds staff), c.Passes pg env row) ↔
      ∀ platforms, ScopeService.scopedPlatformIds staff = .ids platforms →
        ∃ p, row.platform = some p ∧ p.id ∈ platforms := by
    cases hids : ScopeService.scopedPlatformIds staff with
    | all => simp [scopeFragment]
    | ids platforms =>
      rw [hids] at hscope
      have hpasses (c : Fragment) (hc : scopeFragment (.ids platforms) = some c) :
          c.Passes pg env row ↔ ∃ p, row.platform = some p ∧ p.id ∈ platforms := scopeFragment_passes hc (hscope c hc)
      simpa [scopeFragment] using hpasses
  have hplatform' (id : Uuid) (hid : truthy dto.platformId = some id) :
      (eqFragment .platformId "platformId" id).Passes pg env row ↔ ∃ p, row.platform = some p ∧ p.id = id :=
    (eqFragment_passes (hplatform id hid)).trans exists_map_eq
  have hstatus' (s : IssueStatus) (hs : dto.status = some s) :
      (eqFragment .status "status" s.value).Passes pg env row ↔ row.issue.status = s := by
    rw [eqFragment_passes (hstatus s hs)]
    simp [Column.value, IssueStatus.value_inj]
  have hpriority' (p : Priority) (hp : dto.priority = some p) :
      (eqFragment .priority "priority" p.value).Passes pg env row ↔ row.issue.priority = p := by
    rw [eqFragment_passes (hpriority p hp)]
    simp [Column.value, Priority.value_inj]
  have hassignee' (id : Uuid) (hid : truthy dto.assigneeId = some id) :
      (eqFragment .assigneeId "assigneeId" id).Passes pg env row ↔ ∃ a, row.assignee = some a ∧ a.id = id :=
    (eqFragment_passes (hassignee id hid)).trans exists_map_eq
  have hfrom' (v : String) (hv : truthy dto.createdFrom = some v) :
      (timeFragment (.compare .ge) "from" v).Passes pg env row ↔
        ∃ t, pg.timestamptz v = some t ∧ t ≤ row.issue.createdAt :=
    (timeFragment_passes (hfrom v hv)).trans timeAsks_ge
  have hto' (v : String) (hv : truthy dto.createdTo = some v) :
      (timeFragment (.compare .le) "to" v).Passes pg env row ↔
        ∃ t, pg.timestamptz v = some t ∧ row.issue.createdAt ≤ t :=
    (timeFragment_passes (hto v hv)).trans timeAsks_le
  have hsearch' (q : String) (hq : truthy dto.q = some q) :
      (searchFragment js q).Passes pg env row ↔ Searched js pg q row := searchFragment_passes (hsearch q hq)
  rw [hclause, h.forall_iff, hscope', forall₂_congr hplatform', forall₂_congr hstatus', forall₂_congr hpriority',
    forall₂_congr hassignee', forall₂_congr hfrom', forall₂_congr hto', forall₂_congr hsearch']
  constructor
  · rintro ⟨⟨hscope, hplatform, hstatus, hpriority, hassignee, hfrom, hto⟩, hjql, hsearch⟩
    exact ⟨hrow, hscope, hplatform, hstatus, hpriority, hassignee, hfrom, hto, hjql, hsearch⟩
  · intro hm
    exact ⟨⟨hm.scope, hm.platformId, hm.status, hm.priority, hm.assigneeId, hm.createdFrom, hm.createdTo⟩, hm.jql, hm.q⟩

/-- The statement runs exactly when the database reads every date that it is given. -/
theorem binds_iff_readable (h : Parsed js dto filters) (hcs : Clauses js staff.id 0 filters cs)
    (scope : PlatformScope) :
    (Builder.of (queryFragments js dto scope cs)).wheres.all
        (bindsText pg (Builder.of (queryFragments js dto scope cs)).env) = true ↔ Readable js pg dto := by
  obtain ⟨hplain, hclauses, hsearch⟩ := forall_queryFragments.mp (queryFragments_agrees h hcs scope)
  obtain ⟨hscope, hplatform, hstatus, hpriority, hassignee, hfrom, hto⟩ := forall_plainFragments.mp hplain
  rw [List.all_eq_true, of_wheres, List.forall_mem_map, forall_queryFragments, forall_plainFragments]
  generalize (Builder.of (queryFragments js dto scope cs)).env = env at *
  have hclause : (∀ c ∈ cs, bindsText pg env c.sql = true) ↔ ∀ f ∈ filters, DatesRead pg f := by
    apply clauses_forall h.documented hcs
    intro f spec n c hdoc hc hmem
    exact jqlClause_binds hdoc hc (hclauses c hmem)
  have hfrom' (v : String) (hv : truthy dto.createdFrom = some v) :
      bindsText pg env (timeFragment (.compare .ge) "from" v).sql = true ↔ (pg.timestamptz v).isSome = true :=
    compare_binds (hfrom v hv ("from", .text v) List.mem_cons_self) (by simp)
  have hto' (v : String) (hv : truthy dto.createdTo = some v) :
      bindsText pg env (timeFragment (.compare .le) "to" v).sql = true ↔ (pg.timestamptz v).isSome = true :=
    compare_binds (hto v hv ("to", .text v) List.mem_cons_self) (by simp)
  rw [hclause, h.exists_iff, forall₂_congr hfrom', forall₂_congr hto']
  constructor
  · rintro ⟨⟨_, _, _, _, _, hfrom, hto⟩, hjql, _⟩
    exact ⟨hjql, hfrom, hto⟩
  · intro hr
    exact ⟨⟨fun c hc => scopeFragment_binds hc (hscope c hc), fun id hid => eqFragment_binds (hplatform id hid),
      fun s hs => eqFragment_binds (hstatus s hs), fun p hp => eqFragment_binds (hpriority p hp),
      fun id hid => eqFragment_binds (hassignee id hid), hr.createdFrom, hr.createdTo⟩, hr.jql,
      fun q hq => searchFragment_binds (hsearch q hq)⟩

end Query

theorem Readable.parsed (h : Readable js pg dto) : ∃ filters, Parsed js dto filters := by
  unfold Parsed
  split
  · exact ⟨[], rfl⟩
  · rename_i jql hjql
    obtain ⟨filters, hparse, _⟩ := h.jql jql hjql
    exact ⟨filters, hparse⟩

section ReadPath

open Classical in
/-- The filters as they bear on the issues of one database. -/
noncomputable def ListIssuesDto.asRead (js : Runtime) (pg : Postgres) (x : Indexed pg.ts) (staff : AuthenticatedStaff)
    (dto : ListIssuesDto) : Cimp.ListIssuesDto where
  platformId := truthy dto.platformId
  status := dto.status
  priority := dto.priority
  assigneeId := truthy dto.assigneeId
  createdFrom := (truthy dto.createdFrom).bind pg.timestamptz
  createdTo := (truthy dto.createdTo).bind pg.timestamptz
  search issue :=
    (∀ jql filters, truthy dto.jql = some jql → parseJql js jql = .ok filters →
      ∀ f ∈ filters, Asks pg js staff.id (Row.of x issue) f) ∧
    ∀ q, truthy dto.q = some q → Searched js pg q (Row.of x issue)

theorem all_bind_iff {v : Option String} {read : String → Option Time} {p : Time → Bool}
    (hread : ∀ w, v = some w → (read w).isSome = true) :
    (v.bind read).all p = true ↔ ∀ w, v = some w → ∃ t, read w = some t ∧ p t = true := by
  cases v with
  | none => simp
  | some w =>
    obtain ⟨t, ht⟩ := Option.isSome_iff_exists.mp (hread w rfl)
    simp [ht]

/-- The rows that a readable request asks for are those that the read path of the issue list lets through, where a
stored issue's platform and assignee are stored as well. -/
theorem matches_iff_mem_list (h : Readable js pg dto) {issue : Issue} (hissue : issue ∈ x.db.issues.rows)
    (hplatform : (x.db.platforms.findOne issue.platform).isSome = true)
    (hassignee : ∀ id, issue.assignee = some id → (x.db.staffUsers.findOne id).isSome = true) :
    Matches js pg x staff dto (Row.of x issue) ↔ issue ∈ IssuesService.list x.db staff (dto.asRead js pg x staff) := by
  obtain ⟨platform, hfound⟩ := Option.isSome_iff_exists.mp hplatform
  have hkey : platform.id = issue.platform := Table.findOne_key hfound
  have hrow : (Row.of x issue).platform = some platform := hfound
  have hassigned (id : Uuid) : (∃ a, (Row.of x issue).assignee = some a ∧ a.id = id) ↔ issue.assignee = some id := by
    constructor
    · rintro ⟨a, ha, rfl⟩
      obtain ⟨i, hi, hfind⟩ := Option.bind_eq_some_iff.mp ha
      rw [hi, Table.findOne_key hfind]
    · intro hid
      obtain ⟨a, ha⟩ := Option.isSome_iff_exists.mp (hassignee id hid)
      exact ⟨a, Option.bind_eq_some_iff.mpr ⟨id, hid, ha⟩, Table.findOne_key ha⟩
  have hscope : ScopeService.scopeAllows (ScopeService.scopedPlatformIds staff) issue.platform = true ↔
      ∀ platforms, ScopeService.scopedPlatformIds staff = .ids platforms → platform.id ∈ platforms := by
    cases ScopeService.scopedPlatformIds staff with
    | all => simp [ScopeService.scopeAllows]
    | ids platforms => simp [ScopeService.scopeAllows, hkey]
  have hselects : IssuesService.selects (dto.asRead js pg x staff) issue = true ↔
      (∀ id, truthy dto.platformId = some id → issue.platform = id) ∧ (∀ s, dto.status = some s → issue.status = s) ∧
      (∀ p, dto.priority = some p → issue.priority = p) ∧
      (∀ id, truthy dto.assigneeId = some id → issue.assignee = some id) ∧
      (∀ v, truthy dto.createdFrom = some v → ∃ t, pg.timestamptz v = some t ∧ t ≤ issue.createdAt) ∧
      (∀ v, truthy dto.createdTo = some v → ∃ t, pg.timestamptz v = some t ∧ issue.createdAt ≤ t) ∧
      (∀ jql filters, truthy dto.jql = some jql → parseJql js jql = .ok filters →
        ∀ f ∈ filters, Asks pg js staff.id (Row.of x issue) f) ∧
      ∀ q, truthy dto.q = some q → Searched js pg q (Row.of x issue) := by
    simp only [IssuesService.selects, ListIssuesDto.asRead, Bool.and_eq_true, all_bind_iff h.createdFrom,
      all_bind_iff h.createdTo, Option.all_eq_true, decide_eq_true_eq, and_assoc]
  rw [IssuesService.mem_list, hselects, hscope]
  constructor
  · intro hm
    refine ⟨hissue, ⟨fun id hid => ?_, hm.status, hm.priority, fun id hid => (hassigned id).mp (hm.assigneeId id hid),
      hm.createdFrom, hm.createdTo, hm.jql, hm.q⟩, fun platforms hids => ?_⟩
    · obtain ⟨p, hp, rfl⟩ := hm.platformId id hid
      rw [hrow, Option.some_inj] at hp
      rw [← hp, hkey]
    · obtain ⟨p, hp, hin⟩ := hm.scope platforms hids
      rw [hrow, Option.some_inj] at hp
      rwa [hp]
  · rintro ⟨-, ⟨hplatformId, hstatus, hpriority, hassigneeId, hfrom, hto, hjql, hq⟩, hids⟩
    exact ⟨⟨issue, hissue, rfl⟩, fun platforms hscoped => ⟨platform, hrow, hids platforms hscoped⟩,
      fun id hid => ⟨platform, hrow, hkey.trans (hplatformId id hid)⟩, hstatus, hpriority,
      fun id hid => (hassigned id).mpr (hassigneeId id hid), hfrom, hto, hjql, hq⟩

end ReadPath

end ListQuery

end Cimp
