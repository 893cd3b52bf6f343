import Cimp.Authz.ReadPaths
import Cimp.Deflection.Similar
import Cimp.Issues.Jql
import Cimp.Lib.Like
import Cimp.Lib.Sql

namespace Cimp.ListQuery

open Jql Sql

def wildcards : Like.Wildcards Char where
  many := '%'
  one := '_'
  escape := '\\'
  one_ne_many := by decide
  escape_ne_many := by decide
  escape_ne_one := by decide

/-- What the database server does for these queries. `lower` has no effect but on letters. -/
structure Postgres where
  ts : TextSearch
  lower : Char → Char
  timestamptz : String → Option Time
  keeps : Like.Keeps wildcards lower

def Postgres.lowered (pg : Postgres) (s : String) : String := String.ofList (s.toList.map pg.lower)

def Postgres.ilike (pg : Postgres) (s pattern : String) : Bool :=
  Like.like wildcards (pattern.toList.map pg.lower) (s.toList.map pg.lower)

/-- A row of the join of `issue` with `platform`, `reporter` and `assignee`, and the labels of the issue. -/
structure Row (ts : TextSearch) where
  issue : Issue
  searchVector : Option ts.Vector
  platform : Option Platform
  reporter : Option Reporter
  assignee : Option StaffUser
  labels : List Label

def Row.of {ts : TextSearch} (x : Indexed ts) (issue : Issue) : Row ts where
  issue := issue
  searchVector := x.searchVector issue.id
  platform := x.db.platforms.findOne issue.platform
  reporter := x.db.reporters.findOne issue.reporter
  assignee := issue.assignee.bind x.db.staffUsers.findOne
  labels := (x.db.issueLabels.filter fun il => il.issue = issue.id).filterMap fun il => x.db.labels.findOne il.label

inductive Column
  | status | priority | referenceNo | description | platformId | platformKey | assigneeId | assigneeName
  | reporterName | reporterEmail
deriving DecidableEq, Repr

inductive TimeColumn
  | createdAt | updatedAt
deriving DecidableEq, Repr

inductive Operand
  | column (c : Column)
  | lower (c : Column)
deriving DecidableEq, Repr

/-- The conditions without a connective, with the name of the parameter each refers to. -/
inductive Predicate
  | eq (o : Operand) (name : String)
  | ne (o : Operand) (name : String)
  | isIn (o : Operand) (name : String)
  | ilike (c : Column) (name : String)
  | isNull (c : Column)
  | isNotNull (c : Column)
  | compare (c : TimeColumn) (op : JqlOp) (name : String)
  | tsMatch (name : String)
  | noVector
  | labelled (name : String)
deriving DecidableEq, Repr

inductive Param
  | text (s : String)
  | list (ss : List String)
deriving DecidableEq, Repr

def Column.text : Column → String
  | status => "issue.status"
  | priority => "issue.priority"
  | referenceNo => "issue.reference_no"
  | description => "issue.description"
  | platformId => "platform.id"
  | platformKey => "platform.key"
  | assigneeId => "assignee.id"
  | assigneeName => "assignee.name"
  | reporterName => "reporter.name"
  | reporterEmail => "reporter.email"

def TimeColumn.text : TimeColumn → String
  | createdAt => "issue.created_at"
  | updatedAt => "issue.updated_at"

def Operand.text : Operand → String
  | column c => c.text
  | lower c => "LOWER(" ++ c.text ++ ")"

def opText : JqlOp → String
  | .compare c => c.text
  | .isIn => "in"

def Predicate.text : Predicate → String
  | eq o name => o.text ++ " = :" ++ name
  | ne o name => o.text ++ " != :" ++ name
  | isIn o name => o.text ++ " IN (:..." ++ name ++ ")"
  | ilike c name => c.text ++ " ILIKE :" ++ name
  | isNull c => c.text ++ " IS NULL"
  | isNotNull c => c.text ++ " IS NOT NULL"
  | compare c op name => c.text ++ " " ++ opText op ++ " :" ++ name
  | tsMatch name => "issue.search_vector @@ to_tsquery('english', :" ++ name ++ ")"
  | noVector => "issue.search_vector IS NULL"
  | labelled name => "EXISTS (SELECT 1 FROM issue_labels il JOIN labels l ON l.id = il.label_id "
      ++ "WHERE il.issue_id = issue.id AND LOWER(l.name) IN (:..." ++ name ++ "))"

abbrev Text := List (Word Predicate)

/-- The SQL, white space aside. -/
def render (text : Text) : String :=
  String.join (text.map fun
    | .atom p => p.text
    | .and => " AND "
    | .or => " OR "
    | .not => "NOT "
    | .lparen => "("
    | .rparen => ")")

abbrev Env := String → Option Param

def Env.text (env : Env) (name : String) : Option String :=
  match env name with
  | some (.text s) => some s
  | _ => none

def Env.list (env : Env) (name : String) : Option (List String) :=
  match env name with
  | some (.list ss) => some ss
  | _ => none

def Column.value {ts : TextSearch} (row : Row ts) : Column → Option String
  | status => some row.issue.status.value
  | priority => some row.issue.priority.value
  | referenceNo => some row.issue.referenceNo
  | description => some row.issue.description
  | platformId => row.platform.map Platform.id
  | platformKey => row.platform.map Platform.key
  | assigneeId => row.assignee.map StaffUser.id
  | assigneeName => row.assignee.map StaffUser.name
  | reporterName => row.reporter.map Reporter.name
  | reporterEmail => row.reporter.map Reporter.email

def TimeColumn.value {ts : TextSearch} (row : Row ts) : TimeColumn → Time
  | createdAt => row.issue.createdAt
  | updatedAt => row.issue.updatedAt

section Evaluation

variable (pg : Postgres) (env : Env) (row : Row pg.ts)

def Operand.value : Operand → Option String
  | column c => c.value row
  | lower c => (c.value row).map pg.lowered

def compares (a b : Time) : JqlOp → Truth
  | .compare .ge => some (b ≤ a)
  | .compare .le => some (a ≤ b)
  | _ => none

def Predicate.truth : Predicate → Truth
  | eq o name => (o.value pg row).bind fun s => (env.text name).map fun v => s = v
  | ne o name => (o.value pg row).bind fun s => (env.text name).map fun v => s ≠ v
  | isIn o name => (o.value pg row).bind fun s => (env.list name).map fun vs => s ∈ vs
  | ilike c name => (c.value row).bind fun s => (env.text name).map fun v => pg.ilike s v
  | isNull c => some (c.value row).isNone
  | isNotNull c => some (c.value row).isSome
  | compare c op name => ((env.text name).bind pg.timestamptz).bind fun t => compares (c.value row) t op
  | tsMatch name => row.searchVector.bind fun v => (env.text name).map fun q => pg.ts.tsMatch v (pg.ts.toTsquery q)
  | noVector => some row.searchVector.isNone
  | labelled name => (env.list name).map fun vs => row.labels.any fun l => pg.lowered l.name ∈ vs

/-- The parameter is set, and has the type of the column; otherwise the statement fails. -/
def Predicate.binds : Predicate → Bool
  | eq _ name | ne _ name | ilike _ name | tsMatch name => (env.text name).isSome
  | isIn _ name | labelled name => (env.list name).isSome
  | isNull _ | isNotNull _ | noVector => true
  | compare _ op name => ((env.text name).bind pg.timestamptz).isSome && op ∈ [.compare .ge, .compare .le]

def bindsText (text : Text) : Bool :=
  text.all fun
    | .atom p => p.binds pg env
    | _ => true

end Evaluation

/-- The text and the parameters of one `andWhere`. -/
structure Fragment where
  sql : Text
  params : List (String × Param)

/-- The query builder; a parameter set again is overwritten. -/
structure Builder where
  wheres : List Text
  params : List (String × Param)

namespace Builder

def empty : Builder := ⟨[], []⟩

def andWhere (qb : Builder) (c : Fragment) : Builder := ⟨qb.wheres ++ [c.sql], c.params ++ qb.params⟩

def env (qb : Builder) : Env := fun name => qb.params.lookup name

def sql (qb : Builder) : String := render (conjoin qb.wheres)

def Selects (qb : Builder) (pg : Postgres) (row : Row pg.ts) : Prop :=
  (∀ text ∈ qb.wheres, bindsText pg qb.env text = true) ∧ Holds (Predicate.truth pg qb.env row) qb.wheres

instance (qb : Builder) (pg : Postgres) (row : Row pg.ts) : Decidable (qb.Selects pg row) :=
  inferInstanceAs (Decidable (_ ∧ _))

end Builder

def paramName (n : ℕ) : String := "jql" ++ toString n

def like (s : String) : String := String.ofList (Like.substring wildcards s.toList)

def escaped (s : String) : String := String.ofList (Like.escape wildcards s.toList)

/-- The cases `status`, `priority` and `platform`. -/
def comparedClause (o : Operand) (op : JqlOp) (values : List String) (n : ℕ) : Fragment :=
  let name := paramName n
  match op with
  | .isIn => ⟨[.atom (.isIn o name)], [(name, .list values)]⟩
  | .compare .eq => ⟨[.atom (.eq o name)], [(name, .text (values.headD ""))]⟩
  | _ => ⟨[.atom (.ne o name)], [(name, .text (values.headD ""))]⟩

/-- The branches for `=` and `!=`. -/
def assigneeEquality (staffId : Uuid) (op : JqlOp) (v : String) (n : ℕ) : Fragment :=
  let name := paramName n
  if v = "me" then
    if op = .compare .eq then ⟨[.atom (.eq (.column .assigneeId) name)], [(name, .text staffId)]⟩
    else
      ⟨[.lparen, .atom (.isNull .assigneeId), .or, .atom (.ne (.column .assigneeId) name), .rparen],
        [(name, .text staffId)]⟩
  else if v = "unassigned" then
    if op = .compare .eq then ⟨[.atom (.isNull .assigneeId)], []⟩ else ⟨[.atom (.isNotNull .assigneeId)], []⟩
  else if op = .compare .eq then ⟨[.atom (.eq (.lower .assigneeName) name)], [(name, .text v)]⟩
  else
    ⟨[.lparen, .atom (.isNull .assigneeId), .or, .atom (.ne (.lower .assigneeName) name), .rparen],
      [(name, .text v)]⟩

def assigneeClause (staffId : Uuid) (op : JqlOp) (values lower : List String) (n : ℕ) : Fragment :=
  let name := paramName n
  match op with
  | .compare .contains => ⟨[.atom (.ilike .assigneeName name)], [(name, .text (like (values.headD "")))]⟩
  | .isIn => ⟨[.atom (.isIn (.lower .assigneeName) name)], [(name, .list lower)]⟩
  | op => assigneeEquality staffId op (lower.headD "") n

def reporterClause (op : JqlOp) (values lower : List String) (n : ℕ) : Fragment :=
  let name := paramName n
  match op with
  | .compare .contains =>
    ⟨[.lparen, .atom (.ilike .reporterName name), .or, .atom (.ilike .reporterEmail name), .rparen],
      [(name, .text (like (values.headD "")))]⟩
  | .compare .eq =>
    ⟨[.lparen, .atom (.eq (.lower .reporterName) name), .or, .atom (.eq (.lower .reporterEmail) name), .rparen],
      [(name, .text (lower.headD ""))]⟩
  | _ =>
    ⟨[.lparen, .atom (.ne (.lower .reporterName) name), .and, .atom (.ne (.lower .reporterEmail) name), .rparen],
      [(name, .text (lower.headD ""))]⟩

def labelClause (op : JqlOp) (lower : List String) (n : ℕ) : Fragment :=
  let name := paramName n
  ⟨if op = .compare .ne then [.not, .atom (.labelled name)] else [.atom (.labelled name)], [(name, .list lower)]⟩

def timeClause (c : TimeColumn) (op : JqlOp) (values : List String) (n : ℕ) : Fragment :=
  let name := paramName n
  ⟨[.atom (.compare c op name)], [(name, .text (values.headD ""))]⟩

def textClause (js : Runtime) (values : List String) (n : ℕ) : Fragment :=
  let tsq := buildPrefixTsQuery js.toLowerCase (values.headD "")
  let likeName := paramName n
  let likeParam := like (escaped (values.headD ""))
  if tsq ≠ "" then
    let tq := paramName (n + 1)
    ⟨[.lparen, .atom (.ilike .referenceNo likeName), .or, .atom (.tsMatch tq), .or,
        .lparen, .atom .noVector, .and, .atom (.ilike .description likeName), .rparen, .rparen],
      [(likeName, .text likeParam), (tq, .text tsq)]⟩
  else
    ⟨[.lparen, .atom (.ilike .referenceNo likeName), .or, .atom (.ilike .description likeName), .rparen],
      [(likeName, .text likeParam)]⟩

def jqlClause (js : Runtime) (staffId : Uuid) (n : ℕ) (f : JqlFilter) : Except Thrown Fragment :=
  let lower := f.values.map js.toLowerCase
  match f.field with
  | "status" => .ok (comparedClause (.column .status) f.op f.values n)
  | "priority" => .ok (comparedClause (.column .priority) f.op f.values n)
  | "platform" => .ok (comparedClause (.column .platformKey) f.op lower n)
  | "assignee" => .ok (assigneeClause staffId f.op f.values lower n)
  | "reporter" => .ok (reporterClause f.op f.values lower n)
  | "label" => .ok (labelClause f.op lower n)
  | "created" => .ok (timeClause .createdAt f.op f.values n)
  | "updated" => .ok (timeClause .updatedAt f.op f.values n)
  | "text" => .ok (textClause js f.values n)
  | field => .error (bad ("Unknown field \"" ++ field ++ "\"."))

/-- The loop of `applyJqlFilters`; `n` counts the parameters, and every name that is taken is set. -/
def applyFrom (js : Runtime) (staffId : Uuid) : ℕ → Builder → List JqlFilter → Except Thrown Builder
  | _, qb, [] => .ok qb
  | n, qb, f :: fs => do
    let c ← jqlClause js staffId n f
    applyFrom js staffId (n + c.params.length) (qb.andWhere c) fs

def applyJqlFilters (js : Runtime) (qb : Builder) (filters : List JqlFilter) (staffId : Uuid) :
    Except Thrown Builder := applyFrom js staffId 0 qb filters

inductive IssueSortField
  | createdAt | updatedAt | priority | status
deriving DecidableEq, Repr

inductive SortOrder
  | asc | desc
deriving DecidableEq, Repr

structure ListIssuesDto where
  platformId : Option Uuid
  status : Option IssueStatus
  priority : Option Priority
  assigneeId : Option Uuid
  q : Option String
  jql : Option String
  createdFrom : Option String
  createdTo : Option String
  page : ℕ := 1
  pageSize : ℕ := 20
  sort : IssueSortField := .createdAt
  order : SortOrder := .desc
  page_pos : 1 ≤ page
  pageSize_pos : 1 ≤ pageSize
  pageSize_le : pageSize ≤ 100

structure SearchParams where
  tsq : String
  likeRef : String

def searchParams (js : Runtime) (q : String) : SearchParams :=
  let raw := trim q
  ⟨buildPrefixTsQuery js.toLowerCase raw, like (escaped raw)⟩

/-- An optional text as a condition of an `if`. -/
def truthy (v : Option String) : Option String := v.filter (· ≠ "")

def searchFragment (js : Runtime) (q : String) : Fragment :=
  let ⟨tsq, likeRef⟩ := searchParams js q
  if tsq ≠ "" then
    ⟨[.lparen, .atom (.ilike .referenceNo "likeRef"), .or, .atom (.tsMatch "tsq"), .rparen],
      [("likeRef", .text likeRef), ("tsq", .text tsq)]⟩
  else ⟨[.lparen, .atom (.ilike .referenceNo "likeRef"), .rparen], [("likeRef", .text likeRef)]⟩

def scopeFragment (scope : PlatformScope) : Option Fragment :=
  match scope with
  | .all => none
  | .ids platforms => some ⟨[.atom (.isIn (.column .platformId) "scopeIds")], [("scopeIds", .list platforms)]⟩

def eqFragment (c : Column) (name v : String) : Fragment := ⟨[.atom (.eq (.column c) name)], [(name, .text v)]⟩

def timeFragment (op : JqlOp) (name v : String) : Fragment :=
  ⟨[.atom (.compare .createdAt op name)], [(name, .text v)]⟩

/-- The conditions before `jql`. -/
def plainFragments (dto : ListIssuesDto) (scope : PlatformScope) : List Fragment :=
  [scopeFragment scope,
    (truthy dto.platformId).map (eqFragment .platformId "platformId"),
    dto.status.map fun s => eqFragment .status "status" s.value,
    dto.priority.map fun p => eqFragment .priority "priority" p.value,
    (truthy dto.assigneeId).map (eqFragment .assigneeId "assigneeId"),
    (truthy dto.createdFrom).map (timeFragment (.compare .ge) "from"),
    (truthy dto.createdTo).map (timeFragment (.compare .le) "to")].reduceOption

def withJql (js : Runtime) (staffId : Uuid) (dto : ListIssuesDto) (qb : Builder) : Except Thrown Builder :=
  match truthy dto.jql with
  | none => .ok qb
  | some jql => do
    let filters ← parseJql js jql
    applyJqlFilters js qb filters staffId

def withSearch (js : Runtime) (dto : ListIssuesDto) (qb : Builder) : Builder :=
  match truthy dto.q with
  | none => qb
  | some q => qb.andWhere (searchFragment js q)

def buildListQuery (js : Runtime) (staff : AuthenticatedStaff) (dto : ListIssuesDto) (scope : PlatformScope) :
    Except Thrown Builder := do
  let qb ← withJql js staff.id dto ((plainFragments dto scope).foldl Builder.andWhere .empty)
  .ok (withSearch js dto qb)

theorem toLower_eq_iff {c m : Char} (hm : m.toNat < 97) (hm' : m.toLower = m) : c.toLower = m ↔ c = m := by
  constructor
  · intro h
    by_cases hc : c.val ≥ 'A'.val ∧ c.val ≤ 'Z'.val
    · have hlow : 65 ≤ c.toNat := hc.1
      have hhigh : c.toNat ≤ 90 := hc.2
      have hnat : c.toLower.toNat = c.toNat + 32 := by
        have hlower : c.toLower = ⟨c.val + ('a'.val - 'A'.val), _⟩ := dif_pos hc
        rw [hlower]
        change (c.val + 32).toNat = _
        rw [UInt32.toNat_add]
        change (c.toNat + 32) % 2 ^ 32 = c.toNat + 32
        omega
      rw [h] at hnat
      omega
    · have hlower : c.toLower = c := dif_neg hc
      rwa [hlower] at h
  · rintro rfl
    exact hm'

theorem toLower_keeps : Like.Keeps wildcards Char.toLower where
  many _ := toLower_eq_iff (by decide) (by decide)
  one _ := toLower_eq_iff (by decide) (by decide)
  escape _ := toLower_eq_iff (by decide) (by decide)

namespace Sample

def server : Postgres := ⟨Cimp.Sample.textSearch, Char.toLower, fun _ => none, toLower_keeps⟩

def row (reporter : Option Reporter) (assignee : Option StaffUser) : Row server.ts :=
  ⟨DeflectionService.issueOf Cimp.Sample.context "It does not print", none, none, reporter, assignee, []⟩

def agent : AuthenticatedStaff := ⟨"bob", "local:bob@cimp", "Bob", "bob@cimp", []⟩

def staffNamed (id name : String) : StaffUser := ⟨id, "local:" ++ id, name, id ++ "@cimp", none, .active, 1⟩

def listDto (jql : Option String) : ListIssuesDto :=
  { platformId := none, status := none, priority := none, assigneeId := none, q := none, jql := jql,
    createdFrom := none, createdTo := none, page_pos := by decide, pageSize_pos := by decide, pageSize_le := by decide }

end Sample

example : render (assigneeClause "bob" (.compare .ne) ["Me"] ["me"] 3).sql =
    "(assignee.id IS NULL OR assignee.id != :jql3)" := by decide

end Cimp.ListQuery
