import Mathlib.Data.List.ReduceOption
import Cimp.Issues.JqlMeaning

namespace Cimp.ListQuery

open Jql Sql

variable {js : Runtime} {staffId : Uuid} {f : JqlFilter} {filters : List JqlFilter} {n : ℕ} {c : Fragment}
  {cs : List Fragment}

theorem paramName_injective : Function.Injective paramName := by
  intro m n h
  have hrepr : Nat.repr m = Nat.repr n := (String.append_right_inj "jql").mp h
  have hdigits := congrArg String.toList hrepr
  rw [Nat.toList_repr, Nat.toList_repr] at hdigits
  rw [← Nat.ofDigitChars_ten_toDigits (n := m), hdigits, Nat.ofDigitChars_ten_toDigits]

/-- The names that `buildListQuery` itself gives to parameters. -/
def listQueryNames : List String :=
  ["scopeIds", "platformId", "status", "priority", "assigneeId", "from", "to", "likeRef", "tsq"]

theorem paramName_notMem (n : ℕ) : paramName n ∉ listQueryNames := by
  have hall : ∀ name ∈ listQueryNames, name.toList.take 3 ≠ ['j', 'q', 'l'] := by decide
  intro hmem
  apply hall _ hmem
  rw [paramName, String.toList_append]
  rfl

def Known (filters : List JqlFilter) : Prop := ∀ f ∈ filters, ∃ spec, fields.lookup f.field = some spec

theorem known_of_parseJql {input : String} (h : parseJql js input = .ok filters) : Known filters := by
  intro f hf
  obtain ⟨spec, hspec⟩ := (parseJql_eq_ok.mp h).documented.2 f hf
  exact ⟨spec, hspec.field⟩

inductive Clauses (js : Runtime) (staffId : Uuid) : ℕ → List JqlFilter → List Fragment → Prop
  | nil (n : ℕ) : Clauses js staffId n [] []
  | cons {n : ℕ} {f : JqlFilter} {filters : List JqlFilter} {c : Fragment} {cs : List Fragment} :
      jqlClause js staffId n f = .ok c → Clauses js staffId (n + c.params.length) filters cs →
        Clauses js staffId n (f :: filters) (c :: cs)

theorem exists_clauses (h : Known filters) (js : Runtime) (staffId : Uuid) (n : ℕ) :
    ∃ cs, Clauses js staffId n filters cs := by
  induction filters generalizing n with
  | nil => exact ⟨[], .nil n⟩
  | cons f filters ih =>
    obtain ⟨spec, hf⟩ := h f List.mem_cons_self
    obtain ⟨c, hc, _⟩ := means_jqlClause hf js staffId n
    obtain ⟨cs, hcs⟩ := ih (fun f hmem => h f (List.mem_cons_of_mem _ hmem)) (n + c.params.length)
    exact ⟨c :: cs, .cons hc hcs⟩

theorem applyFrom_of_clauses (h : Clauses js staffId n filters cs) (qb : Builder) :
    applyFrom js staffId n qb filters = .ok (cs.foldl Builder.andWhere qb) := by
  induction h generalizing qb with
  | nil => rfl
  | cons hc _ ih =>
    rw [applyFrom, bind_of_ok hc]
    exact ih _

theorem means_of_ok (h : ∃ spec, fields.lookup f.field = some spec) (hc : jqlClause js staffId n f = .ok c) :
    Means (fun pg row => Asks pg js staffId row f) n c := by
  obtain ⟨spec, hf⟩ := h
  obtain ⟨c', hc', hmeans⟩ := means_jqlClause hf js staffId n
  rw [hc] at hc'
  cases hc'
  exact hmeans

theorem fragments_sound (hknown : Known filters) (h : Clauses js staffId n filters cs) : ∀ c ∈ cs, c.Sound := by
  induction h with
  | nil => exact fun _ hmem => absurd hmem List.not_mem_nil
  | cons hc _ ih =>
    obtain ⟨hf, hrest⟩ := List.forall_mem_cons.mp hknown
    exact List.forall_mem_cons.mpr ⟨(means_of_ok hf hc).sound, ih hrest⟩

theorem names_cons : names (c :: cs) = c.params.map Prod.fst ++ names cs := by
  rw [names, List.flatMap_cons, List.map_append]
  rfl

theorem clauses_names (hknown : Known filters) (h : Clauses js staffId n filters cs) :
    names cs = (List.range' n (names cs).length).map paramName := by
  induction h with
  | nil => rfl
  | @cons n f filters c cs hc _ ih =>
    obtain ⟨hf, hrest⟩ := List.forall_mem_cons.mp hknown
    have hlength : (names (c :: cs)).length = c.params.length + (names cs).length := by
      rw [names_cons, List.length_append, List.length_map]
    rw [hlength, ← List.range'_append_1, List.map_append, ← (means_of_ok hf hc).names, ← ih hrest, names_cons]

theorem clauses_nodup (hknown : Known filters) (h : Clauses js staffId n filters cs) : (names cs).Nodup := by
  rw [clauses_names hknown h]
  exact List.Nodup.map paramName_injective List.nodup_range'

theorem clauses_notMem (hknown : Known filters) (h : Clauses js staffId n filters cs) :
    ∀ name ∈ names cs, name ∉ listQueryNames := by
  intro name hname
  rw [clauses_names hknown h] at hname
  obtain ⟨k, _, rfl⟩ := List.mem_map.mp hname
  exact paramName_notMem k

theorem Means.selects_iff {P : (pg : Postgres) → Row pg.ts → Prop} (h : Means P n c) {pg : Postgres} {row : Row pg.ts} :
    (Builder.of [c]).Selects pg row ↔ P pg row := by
  have hnodup : (ListQuery.names [c]).Nodup := by
    rw [names_cons, h.names, ListQuery.names, List.flatMap_nil, List.map_nil, List.append_nil]
    exact List.Nodup.map paramName_injective List.nodup_range'
  rw [selects_iff_passes (List.forall_mem_singleton.mpr h.sound), List.forall_mem_singleton]
  exact h.passes pg row _ (agrees_of_nodup hnodup (List.mem_singleton_self c))

theorem clauses_select (hknown : Known filters) (h : Clauses js staffId n filters cs) {pg : Postgres} {row : Row pg.ts} :
    (∀ c ∈ cs, (Builder.of [c]).Selects pg row) ↔ ∀ f ∈ filters, Asks pg js staffId row f := by
  induction h with
  | nil => simp
  | cons hc _ ih =>
    obtain ⟨hf, hrest⟩ := List.forall_mem_cons.mp hknown
    rw [List.forall_mem_cons, List.forall_mem_cons, ih hrest, (means_of_ok hf hc).selects_iff]

theorem sound_atom {p : Predicate} {params : List (String × Param)}
    (h : ∀ name ∈ p.names, name ∈ params.map Prod.fst) : (⟨[.atom p], params⟩ : Fragment).Sound :=
  ⟨fun v => ⟨_, .atom v p⟩, by simpa using h⟩

theorem names_sublist {fragments : List (Option Fragment)} {allowed : List String}
    (h : List.Forall₂ (fun o name => ∀ c ∈ o, c.params.map Prod.fst = [name]) fragments allowed) :
    (names fragments.reduceOption).Sublist allowed := by
  induction h with
  | nil => exact List.Sublist.refl _
  | @cons o name fragments allowed ho _ ih =>
    cases o with
    | none => exact ih.cons name
    | some c =>
      rw [List.reduceOption_cons_of_some, names_cons, ho c rfl]
      exact ih.cons_cons name

theorem plainFragments_names (dto : ListIssuesDto) (scope : PlatformScope) :
    (names (plainFragments dto scope)).Sublist
      ["scopeIds", "platformId", "status", "priority", "assigneeId", "from", "to"] := by
  apply names_sublist
  have hmap : ∀ {α : Type} {g : α → Fragment} {name : String} (o : Option α),
      (∀ a, (g a).params.map Prod.fst = [name]) → ∀ c ∈ o.map g, c.params.map Prod.fst = [name] := by
    intro α g name o hg c hc
    obtain ⟨a, _, rfl⟩ := Option.map_eq_some_iff.mp hc
    exact hg a
  refine .cons ?_ (.cons (hmap _ fun _ => rfl) (.cons (hmap _ fun _ => rfl) (.cons (hmap _ fun _ => rfl)
    (.cons (hmap _ fun _ => rfl) (.cons (hmap _ fun _ => rfl) (.cons (hmap _ fun _ => rfl) .nil))))))
  intro c hc
  cases scope with
  | all => cases hc
  | ids platforms =>
    cases hc
    rfl

theorem plainFragments_sound (dto : ListIssuesDto) (scope : PlatformScope) :
    ∀ c ∈ plainFragments dto scope, c.Sound := by
  have heq : ∀ column name v, (eqFragment column name v).Sound := fun _ _ _ => sound_atom (by simp [Predicate.names])
  have htime : ∀ op name v, (timeFragment op name v).Sound := fun _ _ _ => sound_atom (by simp [Predicate.names])
  intro c hc
  rw [plainFragments, List.reduceOption_mem_iff] at hc
  simp only [List.mem_cons, List.not_mem_nil, or_false, eq_comm (a := some c), Option.map_eq_some_iff] at hc
  rcases hc with hscope | ⟨_, _, rfl⟩ | ⟨_, _, rfl⟩ | ⟨_, _, rfl⟩ | ⟨_, _, rfl⟩ | ⟨_, _, rfl⟩ | ⟨_, _, rfl⟩
  · cases scope with
    | all => cases hscope
    | ids platforms =>
      cases hscope
      exact sound_atom (by simp [Predicate.names])
  · exact heq _ _ _
  · exact heq _ _ _
  · exact heq _ _ _
  · exact heq _ _ _
  · exact htime _ _ _
  · exact htime _ _ _

theorem searchFragment_sound (js : Runtime) (q : String) : (searchFragment js q).Sound := by
  unfold searchFragment
  dsimp only
  split
  · exact ⟨fun v => ⟨_, .paren (meaning_or v _ _)⟩, by simp [Predicate.names]⟩
  · exact ⟨fun v => ⟨_, .paren (Conjunct.atom v _).meaning_eq⟩, by simp [Predicate.names]⟩

theorem searchFragment_names (js : Runtime) (q : String) :
    ((searchFragment js q).params.map Prod.fst).Sublist ["likeRef", "tsq"] := by
  unfold searchFragment
  dsimp only
  split
  · exact List.Sublist.refl _
  · exact List.sublist_append_left ["likeRef"] ["tsq"]

/-- All that the SQL text shows of a filter. -/
structure Shape where
  field : String
  op : JqlOp
  me : Bool
  unassigned : Bool
  emptyTsQuery : Bool
deriving DecidableEq

def shape (js : Runtime) (f : JqlFilter) : Shape :=
  let v := (f.values.map js.toLowerCase).headD ""
  { field := f.field
    op := f.op
    me := f.field = "assignee" ∧ v = "me"
    unassigned := f.field = "assignee" ∧ v = "unassigned"
    emptyTsQuery := f.field = "text" ∧ buildPrefixTsQuery js.toLowerCase (f.values.headD "") = "" }

def SameText (c c' : Fragment) : Prop := c.sql = c'.sql ∧ c.params.length = c'.params.length

theorem compared_sameText (o : Operand) (op : JqlOp) (values values' : List String) (n : ℕ) :
    SameText (comparedClause o op values n) (comparedClause o op values' n) := by
  cases op with
  | isIn => exact ⟨rfl, rfl⟩
  | compare comparison => cases comparison <;> exact ⟨rfl, rfl⟩

theorem equality_sameText {staffId' : Uuid} {op : JqlOp} {v v' : String} (hme : v = "me" ↔ v' = "me")
    (hnone : v = "unassigned" ↔ v' = "unassigned") (n : ℕ) :
    SameText (assigneeEquality staffId op v n) (assigneeEquality staffId' op v' n) := by
  unfold assigneeEquality
  simp only [hme, hnone]
  split_ifs <;> exact ⟨rfl, rfl⟩

theorem assignee_sameText {staffId' : Uuid} {op : JqlOp} {values values' lower lower' : List String}
    (hme : lower.headD "" = "me" ↔ lower'.headD "" = "me")
    (hnone : lower.headD "" = "unassigned" ↔ lower'.headD "" = "unassigned") (n : ℕ) :
    SameText (assigneeClause staffId op values lower n) (assigneeClause staffId' op values' lower' n) := by
  cases op with
  | isIn => exact ⟨rfl, rfl⟩
  | compare comparison =>
    cases comparison with
    | contains => exact ⟨rfl, rfl⟩
    | eq => exact equality_sameText hme hnone n
    | ne => exact equality_sameText hme hnone n
    | ge => exact equality_sameText hme hnone n
    | le => exact equality_sameText hme hnone n

theorem reporter_sameText (op : JqlOp) (values values' lower lower' : List String) (n : ℕ) :
    SameText (reporterClause op values lower n) (reporterClause op values' lower' n) := by
  cases op with
  | isIn => exact ⟨rfl, rfl⟩
  | compare comparison => cases comparison <;> exact ⟨rfl, rfl⟩

theorem text_sameText {js' : Runtime} {values values' : List String}
    (h : buildPrefixTsQuery js.toLowerCase (values.headD "") = "" ↔
      buildPrefixTsQuery js'.toLowerCase (values'.headD "") = "") (n : ℕ) :
    SameText (textClause js values n) (textClause js' values' n) := by
  unfold textClause
  by_cases htsq : buildPrefixTsQuery js.toLowerCase (values.headD "") ≠ ""
  · have htsq' := (not_congr h).mp htsq
    simp only [SameText, if_pos htsq, if_pos htsq', List.length_cons, List.length_nil, and_self]
  · have htsq' := mt (not_congr h).mpr htsq
    simp only [SameText, if_neg htsq, if_neg htsq', List.length_cons, List.length_nil, and_self]

theorem exists_sameText {f' : JqlFilter} (hknown : ∃ spec, fields.lookup f.field = some spec)
    (h : shape js f = shape js f') (staffId staffId' : Uuid) (n : ℕ) :
    ∃ c c', jqlClause js staffId n f = .ok c ∧ jqlClause js staffId' n f' = .ok c' ∧ SameText c c' := by
  obtain ⟨spec, hf⟩ := hknown
  have hfield := mem_fields hf
  obtain ⟨field, op, values⟩ := f
  obtain ⟨field', op', values'⟩ := f'
  obtain rfl : field = field' := congrArg Shape.field h
  obtain rfl : op = op' := congrArg Shape.op h
  have hme : decide (field = "assignee" ∧ (values.map js.toLowerCase).headD "" = "me") =
      decide (field = "assignee" ∧ (values'.map js.toLowerCase).headD "" = "me") := congrArg Shape.me h
  have hnone : decide (field = "assignee" ∧ (values.map js.toLowerCase).headD "" = "unassigned") =
      decide (field = "assignee" ∧ (values'.map js.toLowerCase).headD "" = "unassigned") := congrArg Shape.unassigned h
  have htsq : decide (field = "text" ∧ buildPrefixTsQuery js.toLowerCase (values.headD "") = "") =
      decide (field = "text" ∧ buildPrefixTsQuery js.toLowerCase (values'.headD "") = "") :=
    congrArg Shape.emptyTsQuery h
  simp only [List.mem_cons, List.not_mem_nil, or_false] at hfield
  rcases hfield with rfl | rfl | rfl | rfl | rfl | rfl | rfl | rfl | rfl
  · exact ⟨_, _, rfl, rfl, compared_sameText _ op _ _ n⟩
  · exact ⟨_, _, rfl, rfl, compared_sameText _ op _ _ n⟩
  · exact ⟨_, _, rfl, rfl, compared_sameText _ op _ _ n⟩
  · rw [decide_eq_decide, and_iff_right rfl, and_iff_right rfl] at hme hnone
    exact ⟨_, _, rfl, rfl, assignee_sameText hme hnone n⟩
  · exact ⟨_, _, rfl, rfl, reporter_sameText op _ _ _ _ n⟩
  · exact ⟨_, _, rfl, rfl, rfl, rfl⟩
  · exact ⟨_, _, rfl, rfl, rfl, rfl⟩
  · exact ⟨_, _, rfl, rfl, rfl, rfl⟩
  · rw [decide_eq_decide, and_iff_right rfl, and_iff_right rfl] at htsq
    exact ⟨_, _, rfl, rfl, text_sameText htsq n⟩

theorem clause_sameText {staffId' : Uuid} {f' : JqlFilter} {c' : Fragment}
    (hknown : ∃ spec, fields.lookup f.field = some spec) (h : shape js f = shape js f')
    (hc : jqlClause js staffId n f = .ok c) (hc' : jqlClause js staffId' n f' = .ok c') : SameText c c' := by
  obtain ⟨d, d', hd, hd', hsame⟩ := exists_sameText hknown h staffId staffId' n
  obtain rfl := Except.ok.inj (hc.symm.trans hd)
  obtain rfl := Except.ok.inj (hc'.symm.trans hd')
  exact hsame

theorem clauses_sameText {staffId' : Uuid} {filters' : List JqlFilter} {cs' : List Fragment} (hknown : Known filters)
    (hshape : filters.map (shape js) = filters'.map (shape js)) (h : Clauses js staffId n filters cs)
    (h' : Clauses js staffId' n filters' cs') : cs.map Fragment.sql = cs'.map Fragment.sql := by
  induction h generalizing filters' cs' with
  | nil =>
    obtain rfl := List.map_eq_nil_iff.mp hshape.symm
    cases h'
    rfl
  | cons hc _ ih =>
    cases h' with
    | nil => cases hshape
    | cons hc' hrest =>
      obtain ⟨hhead, htail⟩ := List.cons.inj hshape
      obtain ⟨hf, hfilters⟩ := List.forall_mem_cons.mp hknown
      obtain ⟨hsql, hlength⟩ := clause_sameText hf hhead hc hc'
      rw [← hlength] at hrest
      rw [List.map_cons, List.map_cons, hsql, ih hfilters htail hrest]

def queryFragments (js : Runtime) (dto : ListIssuesDto) (scope : PlatformScope) (cs : List Fragment) : List Fragment :=
  plainFragments dto scope ++ (cs ++ (truthy dto.q).toList.map (searchFragment js))

theorem withSearch_of (js : Runtime) (dto : ListIssuesDto) (cs : List Fragment) :
    withSearch js dto (Builder.of cs) = Builder.of (cs ++ (truthy dto.q).toList.map (searchFragment js)) := by
  unfold withSearch
  cases truthy dto.q with
  | none => simp
  | some q => simp [Builder.of]

theorem buildListQuery_of_builder {staff : AuthenticatedStaff} {dto : ListIssuesDto} {scope : PlatformScope}
    (h : withJql js staff.id dto (Builder.of (plainFragments dto scope)) =
      .ok (Builder.of (plainFragments dto scope ++ cs))) :
    buildListQuery js staff dto scope = .ok (Builder.of (queryFragments js dto scope cs)) := by
  rw [buildListQuery]
  change withJql js staff.id dto (Builder.of (plainFragments dto scope)) >>= _ = _
  rw [bind_of_ok h, withSearch_of, queryFragments, List.append_assoc]

theorem buildListQuery_of_clauses {staff : AuthenticatedStaff} {dto : ListIssuesDto} {scope : PlatformScope}
    {jql : String} (hjql : truthy dto.jql = some jql) (hparse : parseJql js jql = .ok filters)
    (h : Clauses js staff.id 0 filters cs) :
    buildListQuery js staff dto scope = .ok (Builder.of (queryFragments js dto scope cs)) := by
  apply buildListQuery_of_builder
  rw [withJql, hjql]
  simp only
  rw [bind_of_ok hparse, applyJqlFilters, applyFrom_of_clauses h, Builder.of, Builder.of, List.foldl_append]

theorem buildListQuery_of_none {staff : AuthenticatedStaff} {dto : ListIssuesDto} {scope : PlatformScope}
    (hjql : truthy dto.jql = none) :
    buildListQuery js staff dto scope = .ok (Builder.of (queryFragments js dto scope [])) := by
  apply buildListQuery_of_builder
  rw [withJql, hjql, List.append_nil]

theorem search_names (js : Runtime) (dto : ListIssuesDto) :
    (names ((truthy dto.q).toList.map (searchFragment js))).Sublist ["likeRef", "tsq"] := by
  cases truthy dto.q with
  | none => exact List.nil_sublist _
  | some q => simpa [names] using searchFragment_names js q

theorem queryFragments_sound (js : Runtime) (dto : ListIssuesDto) (scope : PlatformScope) (h : ∀ c ∈ cs, c.Sound) :
    ∀ c ∈ queryFragments js dto scope cs, c.Sound := by
  refine List.forall_mem_append.mpr ⟨plainFragments_sound dto scope, List.forall_mem_append.mpr ⟨h, ?_⟩⟩
  exact List.forall_mem_map.mpr fun q _ => searchFragment_sound js q

theorem queryFragments_nodup (js : Runtime) (dto : ListIssuesDto) (scope : PlatformScope) (h : (names cs).Nodup)
    (hnew : ∀ name ∈ names cs, name ∉ listQueryNames) : (names (queryFragments js dto scope cs)).Nodup := by
  have hplain := plainFragments_names dto scope
  have hsearch := search_names js dto
  have hnodup : (["scopeIds", "platformId", "status", "priority", "assigneeId", "from", "to"] ++
      ["likeRef", "tsq"]).Nodup := by decide
  have hown := hnodup.sublist (hplain.append hsearch)
  rw [List.nodup_append] at hown
  rw [queryFragments, names_append, names_append, List.nodup_append, List.nodup_append]
  refine ⟨hown.1, ⟨h, hown.2.1, ?_⟩, ?_⟩
  · rintro name hname other hother rfl
    exact hnew name hname (List.mem_append_right
      ["scopeIds", "platformId", "status", "priority", "assigneeId", "from", "to"] (hsearch.subset hother))
  · rintro name hname other hother rfl
    rcases List.mem_append.mp hother with hclause | hmem
    · exact hnew name hclause (List.mem_append_left ["likeRef", "tsq"] (hplain.subset hname))
    · exact hown.2.2 name hname name hmem rfl

theorem truthy_of_parseJql {jql : String} (h : parseJql js jql = .ok filters) : truthy (some jql) = some jql := by
  have hne : jql ≠ "" := by
    rintro rfl
    exact (parseJql_eq_ok.mp h).ne_nil (tokenize_of_trim (by decide))
  simp [truthy, hne]

/-- A filter in `jql` narrows the list to the rows of which every clause holds, takes names of its own, and shows its values in
the SQL only as far as `Shape` tells. -/
theorem jql_narrows (js : Runtime) (staff : AuthenticatedStaff) (dto : ListIssuesDto) (scope : PlatformScope)
    (jql : String) (filters : List JqlFilter) (hjql : dto.jql = some jql) (hparse : parseJql js jql = .ok filters) :
    ∃ qb base added, buildListQuery js staff dto scope = .ok qb ∧
      buildListQuery js staff { dto with jql := none } scope = .ok base ∧
      applyJqlFilters js .empty filters staff.id = .ok added ∧
      (∀ (pg : Postgres) (row : Row pg.ts),
        qb.Selects pg row ↔ base.Selects pg row ∧ ∀ f ∈ filters, Asks pg js staff.id row f) ∧
      (qb.params.map Prod.fst).Nodup ∧ (added.params.map Prod.fst).Nodup ∧
      (∀ name ∈ added.params.map Prod.fst, name ∉ listQueryNames) ∧
      ∀ (staff' : AuthenticatedStaff) (jql' : String) (filters' : List JqlFilter),
        parseJql js jql' = .ok filters' → filters'.map (shape js) = filters.map (shape js) →
          ∃ qb', buildListQuery js staff' { dto with jql := some jql' } scope = .ok qb' ∧ qb'.sql = qb.sql := by
  have hknown := known_of_parseJql hparse
  obtain ⟨cs, hcs⟩ := exists_clauses hknown js staff.id 0
  have hsound := fragments_sound hknown hcs
  have hnodup := clauses_nodup hknown hcs
  have hnew := clauses_notMem hknown hcs
  have htruthy : truthy dto.jql = some jql := by
    rw [hjql]
    exact truthy_of_parseJql hparse
  have hall := queryFragments_nodup js dto scope hnodup hnew
  refine ⟨_, _, _, buildListQuery_of_clauses htruthy hparse hcs, buildListQuery_of_none rfl,
    applyFrom_of_clauses hcs .empty, ?_, ?_, ?_, ?_, ?_⟩
  · intro pg row
    have hbase : (names (queryFragments js dto scope [])).Nodup :=
      queryFragments_nodup js dto scope List.nodup_nil fun _ hmem => absurd hmem List.not_mem_nil
    rw [selects_iff (queryFragments_sound js dto scope hsound) hall, ← clauses_select hknown hcs]
    have hplain : (Builder.of (queryFragments js dto scope [])).Selects pg row ↔
        ∀ c ∈ queryFragments js dto scope [], (Builder.of [c]).Selects pg row :=
      selects_iff (queryFragments_sound js dto scope fun _ hmem => absurd hmem List.not_mem_nil) hbase
    change _ ↔ (Builder.of (queryFragments js dto scope [])).Selects pg row ∧ _
    rw [hplain, queryFragments, queryFragments, List.nil_append, List.forall_mem_append, List.forall_mem_append,
      List.forall_mem_append]
    tauto
  · exact (names_perm _).nodup_iff.mpr hall
  · exact (names_perm cs).nodup_iff.mpr hnodup
  · exact fun name hname => hnew name ((names_perm cs).mem_iff.mp hname)
  · intro staff' jql' filters' hparse' hshape
    obtain ⟨cs', hcs'⟩ := exists_clauses (known_of_parseJql hparse') js staff'.id 0
    refine ⟨_, buildListQuery_of_clauses (truthy_of_parseJql hparse') hparse' hcs', ?_⟩
    have hsql := clauses_sameText (known_of_parseJql hparse') hshape hcs' hcs
    simp only [Builder.sql, of_wheres, queryFragments, List.map_append, hsql]
    rfl

theorem parseJql_mine : parseJql Sample.ascii "assignee = me" = .ok [⟨"assignee", .compare .eq, ["me"]⟩] := by
  have htokens : tokenize "assignee = me" = [.word "assignee", .op .eq, .word "me"] := by decide
  have hclause : clause Sample.ascii [.word "assignee", .op .eq, .word "me"] =
      .ok (⟨"assignee", .compare .eq, ["me"]⟩, []) := rfl
  rw [parseJql_eq_ok, htokens]
  apply clauses_sound
  rw [clauses_of_ok hclause]
  rfl

theorem jql_narrows_mine :
    ∃ qb base, buildListQuery Sample.ascii Sample.agent (Sample.listDto (some "assignee = me")) .all = .ok qb ∧
      buildListQuery Sample.ascii Sample.agent (Sample.listDto none) .all = .ok base ∧
      (qb.Selects Sample.server (Sample.row none (some (Sample.staffNamed "bob" "Bob"))) ↔
        base.Selects Sample.server (Sample.row none (some (Sample.staffNamed "bob" "Bob"))) ∧
          Asks Sample.server Sample.ascii "bob" (Sample.row none (some (Sample.staffNamed "bob" "Bob")))
            ⟨"assignee", .compare .eq, ["me"]⟩) := by
  obtain ⟨qb, base, _, hqb, hbase, _, hselects, _⟩ :=
    jql_narrows Sample.ascii Sample.agent (Sample.listDto (some "assignee = me")) .all "assignee = me"
      [⟨"assignee", .compare .eq, ["me"]⟩] rfl parseJql_mine
  refine ⟨qb, base, hqb, hbase, ?_⟩
  rw [hselects Sample.server (Sample.row none (some (Sample.staffNamed "bob" "Bob"))), List.forall_mem_singleton]
  rfl

end Cimp.ListQuery
