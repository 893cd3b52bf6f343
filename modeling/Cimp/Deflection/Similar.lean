import Cimp.Deflection.SearchVector
import Cimp.Reporter.Intake
import Mathlib.Data.List.Sort

namespace Cimp

def isTermChar (c : Char) : Bool := c.isDigit || ('a' ≤ c && c ≤ 'z')

def searchTerms (q : String) : List (List Char) := (q.toList.splitOnP isSpace).map fun t => t.filter isTermChar

def prefixQuery (terms : List (List Char)) : String :=
  String.ofList ((terms.map (· ++ [':', '*'])).intersperse [' ', '&', ' ']).flatten

/-- The pieces that a leading or trailing blank leaves are empty, and dropped with the other empty ones. -/
def buildPrefixTsQuery (toLowerCase : String → String) (q : String) : String :=
  prefixQuery ((searchTerms (toLowerCase q)).filter (· ≠ []))

namespace DeflectionService

structure Suggestion where
  issue : Uuid
  title : Option String
  status : IssueStatus
  firstReportedAt : Time
  reportCount : ℕ
deriving DecidableEq, Repr

def likeTerms (toLowerCase : String → String) (q : String) : List (List Char) :=
  (((searchTerms (toLowerCase q)).filter fun t => 4 ≤ t.length).insertionSort
    fun a b => b.length ≤ a.length).take 5

def ilike (text : String) (term : List Char) : Bool := (text.toList.map Char.toLower).tails.any (term.isPrefixOf ·)

variable (ts : TextSearch)

def found (x : Indexed ts) (query : ts.Query) (terms : List (List Char)) (i : Issue) : Bool :=
  match x.searchVector i.id with
  | some v => ts.tsMatch v query
  | none => terms.any (ilike i.description)

def rank (x : Indexed ts) (query : ts.Query) (i : Issue) : ℚ :=
  (x.searchVector i.id).elim 0 fun v => ts.tsRank v query

def precedes (x : Indexed ts) (query : ts.Query) (a b : Issue) : Prop :=
  rank ts x query b < rank ts x query a ∨
    rank ts x query a = rank ts x query b ∧ b.createdAt ≤ a.createdAt

instance (x : Indexed ts) (query : ts.Query) : DecidableRel (precedes ts x query) := fun a b =>
  inferInstanceAs (Decidable (rank ts x query b < rank ts x query a ∨
    rank ts x query a = rank ts x query b ∧ b.createdAt ≤ a.createdAt))

def candidates (x : Indexed ts) (ctx : HandoffContext) (query : ts.Query) (terms : List (List Char)) : List Issue :=
  x.db.issues.rows.filter fun i =>
    i.platform = ctx.platformId && i.status ∈ openIssueStatuses && i.duplicateOf = none
      && found ts x query terms i

def suggestion (db : Db) (i : Issue) : Suggestion where
  issue := i.id
  title := if i.publiclyVisible then i.publicTitle else none
  status := i.status
  firstReportedAt := i.createdAt
  reportCount := 1 + (db.issues.rows.filter fun d => d.duplicateOf = some i.id).length

def findSimilar (toLowerCase : String → String) (x : Indexed ts) (ctx : HandoffContext) (q : String) :
    List Suggestion :=
  let tsq := buildPrefixTsQuery toLowerCase q
  if tsq = "" then []
  else
    let query := ts.toTsquery tsq
    let rows := candidates ts x ctx query (likeTerms toLowerCase q)
    ((rows.insertionSort (precedes ts x query)).take 3).map (suggestion x.db)

end DeflectionService

/-- What is known of the text search of the database: no term is found where there is no text, and a
query that asks for no weight finds a text under either. -/
structure TextSearch.Documented (ts : TextSearch) : Prop where
  no_text : ∀ terms, (∀ t ∈ terms, t ≠ [] ∧ t.all isTermChar = true) →
    ts.tsMatch (ts.weighed "" "") (ts.toTsquery (prefixQuery terms)) = false
  any_weight : ∀ text terms, (∀ t ∈ terms, t ≠ [] ∧ t.all isTermChar = true) →
    ts.tsMatch (ts.weighed text "") (ts.toTsquery (prefixQuery terms)) = true →
      ts.tsMatch (ts.weighed "" text) (ts.toTsquery (prefixQuery terms)) = true

structure DifferInNotes (db db' : Db) : Prop where
  others : { db with comments := db'.comments } = db'
  visible : (db.comments.rows.filter fun c => c.visibility ≠ .internal) =
    db'.comments.rows.filter fun c => c.visibility ≠ .internal

/-- No issue can answer the query, whatever is written in it: there is no term, or stop words only. -/
def Unsearchable (ts : TextSearch) (toLowerCase : String → String) (q : String) : Prop :=
  buildPrefixTsQuery toLowerCase q = "" ∨ ∀ description text,
    ts.tsMatch (ts.weighed description text) (ts.toTsquery (buildPrefixTsQuery toLowerCase q)) = false

theorem searchTerms_terms (q : String) :
    ∀ t ∈ (searchTerms q).filter (· ≠ []), t ≠ [] ∧ t.all isTermChar = true := by
  intro t ht
  obtain ⟨hmem, hne⟩ := List.mem_filter.mp ht
  obtain ⟨piece, _, rfl⟩ := List.mem_map.mp hmem
  exact ⟨by simpa using hne, List.all_filter.trans (by simp)⟩

namespace DeflectionService

variable {ts : TextSearch} {toLowerCase : String → String} {q : String}

theorem findSimilar_of_no_match {x : Indexed ts} {ctx : HandoffContext} (hx : x.Maintained)
    (h : ∀ i ∈ x.db.issues.rows,
      ts.tsMatch (Indexed.vectorOf ts x.db i) (ts.toTsquery (buildPrefixTsQuery toLowerCase q)) = false) :
    findSimilar ts toLowerCase x ctx q = [] := by
  have hnone : candidates ts x ctx (ts.toTsquery (buildPrefixTsQuery toLowerCase q)) (likeTerms toLowerCase q) = [] := by
    apply List.filter_eq_nil_iff.mpr
    intro i hi
    simp [found, hx i.id i (Table.findOne_of_mem hi), h i hi]
  simp only [findSimilar, hnone]
  split <;> rfl

theorem findSimilar_of_unsearchable (hq : Unsearchable ts toLowerCase q) {x : Indexed ts} {ctx : HandoffContext}
    (hx : x.Maintained) : findSimilar ts toLowerCase x ctx q = [] := by
  rcases hq with hempty | hnone
  · simp [findSimilar, hempty]
  · exact findSimilar_of_no_match hx fun i _ => hnone _ _

def issueOf (ctx : HandoffContext) (description : String) : Issue :=
  ReporterService.newIssue 0 ctx ⟨description, none⟩ "reporter" ⟨"issue", "reporter", "reference"⟩

def note (body : String) : Comment where
  id := "note"
  issue := "issue"
  author := none
  authorType := .staff
  authorName := none
  body := body
  visibility := .internal
  sourceLocale := none
  translations := []
  createdAt := 0
  editedAt := none

def bare (ctx : HandoffContext) (description : String) : Db :=
  { Db.empty with issues := ⟨[issueOf ctx description], by simp⟩ }

def noted (ctx : HandoffContext) (description body : String) : Db :=
  { bare ctx description with comments := ⟨[note body], by simp⟩ }

theorem noted_differs (ctx : HandoffContext) (description body : String) :
    DifferInNotes (noted ctx description body) (bare ctx description) :=
  ⟨rfl, by simp [noted, bare, note, Db.empty, Table.empty]⟩

theorem findSimilar_noted (ctx : HandoffContext) {description body : String}
    (hq : buildPrefixTsQuery toLowerCase q ≠ "")
    (hmatch : ts.tsMatch (ts.weighed description body) (ts.toTsquery (buildPrefixTsQuery toLowerCase q)) = true) :
    findSimilar ts toLowerCase (Indexed.backfill ts (noted ctx description body)) ctx q ≠ [] := by
  have hvector : (Indexed.backfill ts (noted ctx description body)).searchVector "issue" =
    some (ts.weighed description body) := rfl
  have hfound : candidates ts (Indexed.backfill ts (noted ctx description body)) ctx
      (ts.toTsquery (buildPrefixTsQuery toLowerCase q)) (likeTerms toLowerCase q) = [issueOf ctx description] := by
    apply List.filter_eq_self.mpr
    intro i hi
    cases List.mem_singleton.mp hi
    simp [found, issueOf, ReporterService.newIssue, hvector, hmatch, openIssueStatuses]
  simp [findSimilar, hq, hfound]

theorem findSimilar_bare (ctx : HandoffContext) {description : String}
    (hmatch : ts.tsMatch (ts.weighed description "") (ts.toTsquery (buildPrefixTsQuery toLowerCase q)) = false) :
    findSimilar ts toLowerCase (Indexed.backfill ts (bare ctx description)) ctx q = [] := by
  apply findSimilar_of_no_match (Indexed.maintained_backfill _)
  intro i hi
  cases List.mem_singleton.mp hi
  exact hmatch

theorem answered_by_note (hts : ts.Documented) (h : ¬ Unsearchable ts toLowerCase q) :
    buildPrefixTsQuery toLowerCase q ≠ "" ∧ ∃ description body,
      ts.tsMatch (ts.weighed description body) (ts.toTsquery (buildPrefixTsQuery toLowerCase q)) = true ∧
        ts.tsMatch (ts.weighed description "") (ts.toTsquery (buildPrefixTsQuery toLowerCase q)) = false := by
  obtain ⟨hq, htext⟩ := not_or.mp h
  obtain ⟨description, hbody⟩ := not_forall.mp htext
  obtain ⟨body, hmatch⟩ := not_forall.mp hbody
  refine ⟨hq, ?_⟩
  have hterms := searchTerms_terms (toLowerCase q)
  cases halone : ts.tsMatch (ts.weighed description "") (ts.toTsquery (buildPrefixTsQuery toLowerCase q)) with
  | false => exact ⟨description, body, by simpa using hmatch, halone⟩
  | true => exact ⟨"", description, hts.any_weight description _ hterms halone, hts.no_text _ hterms⟩

/-- The suggestions tell nothing of internal notes exactly when the query can find no issue at all. -/
theorem notes_hidden_iff_unsearchable (ts : TextSearch) (hts : ts.Documented) (toLowerCase : String → String)
    (ctx : HandoffContext) (q : String) :
    (∀ x y : Indexed ts, x.Maintained → y.Maintained → DifferInNotes x.db y.db →
      findSimilar ts toLowerCase x ctx q = findSimilar ts toLowerCase y ctx q) ↔
      Unsearchable ts toLowerCase q := by
  constructor
  · intro hsame
    by_contra hsearchable
    obtain ⟨hq, description, body, hnoted, hbare⟩ := answered_by_note hts hsearchable
    have hequal := hsame _ _ (Indexed.maintained_backfill (noted ctx description body))
      (Indexed.maintained_backfill (bare ctx description)) (noted_differs ctx description body)
    rw [findSimilar_bare ctx hbare] at hequal
    exact findSimilar_noted ctx hq hnoted hequal
  · intro hq x y hx hy _
    rw [findSimilar_of_unsearchable hq hx, findSimilar_of_unsearchable hq hy]

end DeflectionService

namespace Sample

def textSearch : TextSearch where
  Vector := List (List Char)
  Query := List (List Char)
  toTsvector text := ((text.toList.map Char.toLower).splitOnP fun c => !isTermChar c).filter (· ≠ [])
  setweight v _ := v
  append v w := v ++ w
  toTsquery query := ((query.toList.splitOnP (· = ' ')).filter (· ≠ ['&'])).map fun t => t.take (t.length - 2)
  tsMatch v query := query ≠ [] && query.all fun t => v.any (t.isPrefixOf ·)
  tsRank v query := (v.filter fun l => query.any (·.isPrefixOf l)).length

theorem textSearch_documented : textSearch.Documented where
  no_text := by
    intro terms _
    cases hquery : textSearch.toTsquery (prefixQuery terms) with
    | nil => rfl
    | cons t rest => rfl
  any_weight := by
    intro text terms _ h
    simpa [TextSearch.weighed, textSearch] using h

end Sample

namespace DeflectionService

theorem notes_hidden_iff_unsearchable_printer :
    (∀ x y : Indexed Sample.textSearch, x.Maintained → y.Maintained → DifferInNotes x.db y.db →
      findSimilar Sample.textSearch id x Sample.context "printer" =
        findSimilar Sample.textSearch id y Sample.context "printer") ↔
      Unsearchable Sample.textSearch id "printer" :=
  notes_hidden_iff_unsearchable Sample.textSearch Sample.textSearch_documented id Sample.context "printer"

theorem note_answers_the_search :
    ¬ ∀ (ts : TextSearch) (_ : ts.Documented) (toLowerCase : String → String) (ctx : HandoffContext) (q : String)
      (x y : Indexed ts), x.Maintained → y.Maintained → DifferInNotes x.db y.db →
        findSimilar ts toLowerCase x ctx q = findSimilar ts toLowerCase y ctx q := by
  intro h
  have hequal := h Sample.textSearch Sample.textSearch_documented id Sample.context "printer" _ _
    (Indexed.maintained_backfill (noted Sample.context "It does not work" "the printer is on fire"))
    (Indexed.maintained_backfill (bare Sample.context "It does not work")) (noted_differs ..)
  have hlength := congrArg List.length hequal
  revert hlength
  decide

end DeflectionService

end Cimp
