import Cimp.Issues.Narrowing

namespace Cimp.ListQuery

open Jql

inductive Site
  | q | text | assignee | reporter
deriving DecidableEq, Repr

def Site.fragment (js : Runtime) (staffId : Uuid) (s : String) : Site → Except Thrown Fragment
  | q => .ok (searchFragment js s)
  | text => jqlClause js staffId 0 ⟨"text", .compare .contains, [s]⟩
  | assignee => jqlClause js staffId 0 ⟨"assignee", .compare .contains, [s]⟩
  | reporter => jqlClause js staffId 0 ⟨"reporter", .compare .contains, [s]⟩

def Site.searched (s : String) : Site → String
  | q => trim s
  | _ => s

/-- `t` contains `s`, whatever the letter case. -/
def Contains (pg : Postgres) (t s : String) : Prop := s.toList.map pg.lower <:+: t.toList.map pg.lower

/-- Every `ILIKE` of the site is true of the rows whose column contains the text, and of no others. -/
def Literal (js : Runtime) (pg : Postgres) (staffId : Uuid) (site : Site) (s : String) : Prop :=
  ∀ c, site.fragment js staffId s = .ok c → ∀ column name, .atom (.ilike column name) ∈ c.sql → ∀ row : Row pg.ts,
    (Predicate.ilike column name).truth pg (Builder.of [c]).env row = some true ↔
      ∃ t, column.value row = some t ∧ Contains pg t (site.searched s)

def Site.pattern (s : String) : Site → String
  | q => like (escaped (trim s))
  | text => like (escaped s)
  | _ => like s

variable {js : Runtime} {pg : Postgres} {staffId : Uuid} {site : Site} {s t : String}

theorem ilike_escaped : pg.ilike t (like (escaped s)) = true ↔ Contains pg t s := by
  rw [Postgres.ilike, like, escaped, String.toList_ofList, String.toList_ofList, pg.keeps.substring_map,
    pg.keeps.escape_map, Like.like_substring_escape]
  rfl

theorem ilike_plain (h : ∀ c ∈ s.toList, c ∉ wildcards.special) : pg.ilike t (like s) = true ↔ Contains pg t s := by
  rw [← ilike_escaped, escaped, Like.escape_of_plain h, String.ofList_toList]

theorem env_single (c : Fragment) (name : String) : (Builder.of [c]).env name = c.params.lookup name := by
  rw [Builder.env, of_params]
  simp

def Patterned (c : Fragment) (pattern : String) : Prop :=
  ∀ column name, .atom (.ilike column name) ∈ c.sql → c.params.lookup name = some (.text pattern)

def ilikeName : Sql.Word Predicate → Option String
  | .atom (.ilike _ name) => some name
  | _ => none

theorem patterned_head {sql : Text} {name pattern : String} {params : List (String × Param)}
    (h : ∀ other ∈ sql.filterMap ilikeName, other = name) :
    Patterned ⟨sql, (name, .text pattern) :: params⟩ pattern := by
  intro column other hmem
  rw [h other (List.mem_filterMap.mpr ⟨_, hmem, rfl⟩)]
  exact List.lookup_cons_self

theorem searchFragment_patterned (js : Runtime) (s : String) :
    Patterned (searchFragment js s) (like (escaped (trim s))) := by
  unfold searchFragment searchParams
  by_cases htsq : buildPrefixTsQuery js.toLowerCase (trim s) ≠ ""
  · simp only [if_pos htsq]
    exact patterned_head (by simp [ilikeName])
  · simp only [if_neg htsq]
    exact patterned_head (by simp [ilikeName])

theorem textClause_patterned (js : Runtime) (s : String) : Patterned (textClause js [s] 0) (like (escaped s)) := by
  unfold textClause
  rw [List.headD_cons]
  by_cases htsq : buildPrefixTsQuery js.toLowerCase s ≠ ""
  · simp only [if_pos htsq]
    exact patterned_head (by simp [ilikeName])
  · simp only [if_neg htsq]
    exact patterned_head (by simp [ilikeName])

theorem exists_fragment (js : Runtime) (staffId : Uuid) (site : Site) (s : String) :
    ∃ c, site.fragment js staffId s = .ok c ∧ Patterned c (site.pattern s) := by
  cases site with
  | q => exact ⟨_, rfl, searchFragment_patterned js s⟩
  | text => exact ⟨_, rfl, textClause_patterned js s⟩
  | assignee => exact ⟨_, rfl, patterned_head (by simp [ilikeName])⟩
  | reporter => exact ⟨_, rfl, patterned_head (by simp [ilikeName])⟩

theorem literal_iff_pattern :
    Literal js pg staffId site s ↔ ∀ c, site.fragment js staffId s = .ok c →
      ∀ column name, .atom (.ilike column name) ∈ c.sql → ∀ row : Row pg.ts,
        (∃ t, column.value row = some t ∧ pg.ilike t (site.pattern s) = true) ↔
          ∃ t, column.value row = some t ∧ Contains pg t (site.searched s) := by
  obtain ⟨c', hc', hpatterned⟩ := exists_fragment js staffId site s
  refine forall₂_congr fun c hc => forall_congr' fun column => forall₂_congr fun name hmem => forall_congr' fun row => ?_
  obtain rfl := Except.ok.inj (hc'.symm.trans hc)
  have henv : (Builder.of [c']).env name = some (.text (site.pattern s)) := by
    rw [env_single]
    exact hpatterned column name hmem
  rw [truth_ilike pg row henv]

theorem literal_of_escaped (h : site = .q ∨ site = .text) : Literal js pg staffId site s := by
  rw [literal_iff_pattern]
  intro c _ column name _ row
  rcases h with rfl | rfl
  · simp only [Site.pattern, Site.searched, ilike_escaped]
  · simp only [Site.pattern, Site.searched, ilike_escaped]

theorem literal_of_plain (h : ∀ c ∈ s.toList, c ∉ wildcards.special) : Literal js pg staffId site s := by
  by_cases hsite : site = .q ∨ site = .text
  · exact literal_of_escaped hsite
  · rw [literal_iff_pattern]
    intro c _ column name _ row
    cases site with
    | q => exact absurd (Or.inl rfl) hsite
    | text => exact absurd (Or.inr rfl) hsite
    | assignee => simp only [Site.pattern, Site.searched, ilike_plain h]
    | reporter => simp only [Site.pattern, Site.searched, ilike_plain h]

def impostor (s : String) : String := String.ofList (Like.shortest wildcards 'x' s.toList)

theorem impostor_found (pg : Postgres) {c : Char} (hc : c ∈ s.toList) (hspecial : c ∈ wildcards.special) :
    pg.ilike (impostor s) (like s) = true ∧ ¬ Contains pg (impostor s) s := by
  have hx : pg.lower 'x' ≠ wildcards.one := mt (pg.keeps.one 'x').mp (by decide)
  rw [Postgres.ilike, Contains, impostor, like, String.toList_ofList, String.toList_ofList, pg.keeps.substring_map,
    pg.keeps.shortest_map]
  constructor
  · exact Like.like_substring_shortest wildcards _ _
  · exact Like.not_infix_shortest hx (List.mem_map_of_mem hc) (pg.keeps.special.mpr hspecial)

def rowFor (pg : Postgres) (reporter : Option Reporter) (assignee : Option StaffUser) : Row pg.ts :=
  ⟨DeflectionService.issueOf Cimp.Sample.context "It does not print", none, none, reporter, assignee, []⟩

theorem plain_of_literal (h : Literal js pg staffId site s) (hsite : site ≠ .q) (hsite' : site ≠ .text) :
    ∀ c ∈ s.toList, c ∉ wildcards.special := by
  intro c hc hspecial
  obtain ⟨hfound, hmissing⟩ := impostor_found pg hc hspecial
  rw [literal_iff_pattern] at h
  cases site with
  | q => exact hsite rfl
  | text => exact hsite' rfl
  | assignee =>
    have hrow := (h _ rfl .assigneeName _ List.mem_cons_self
      (rowFor pg none (some (Sample.staffNamed "staff" (impostor s))))).mp ⟨_, rfl, hfound⟩
    obtain ⟨t, ht, hcontains⟩ := hrow
    cases ht
    exact hmissing hcontains
  | reporter =>
    have hrow := (h _ rfl .reporterName _ (List.mem_cons_of_mem _ List.mem_cons_self)
      (rowFor pg (some ⟨"reporter", "P", "u-1", impostor s, "reporter@portal"⟩) none)).mp ⟨_, rfl, hfound⟩
    obtain ⟨t, ht, hcontains⟩ := hrow
    cases ht
    exact hmissing hcontains

/-- The two sites that escape are literal; the other two as long as there is nothing to escape. -/
theorem literal_iff (js : Runtime) (pg : Postgres) (staffId : Uuid) (site : Site) (s : String) :
    Literal js pg staffId site s ↔ site = .q ∨ site = .text ∨ ∀ c ∈ s.toList, c ∉ wildcards.special := by
  constructor
  · intro h
    by_cases hq : site = .q
    · exact Or.inl hq
    · by_cases htext : site = .text
      · exact Or.inr (Or.inl htext)
      · exact Or.inr (Or.inr (plain_of_literal h hq htext))
  · rintro (hq | htext | hplain)
    · exact literal_of_escaped (Or.inl hq)
    · exact literal_of_escaped (Or.inr htext)
    · exact literal_of_plain hplain

theorem assignee_underscore_matches_any : ¬ Literal Sample.ascii Sample.server "bob" .assignee "a_b" := by
  intro h
  have hspecial := plain_of_literal h (by decide) (by decide)
  exact hspecial '_' (by decide) (by decide)

end Cimp.ListQuery
