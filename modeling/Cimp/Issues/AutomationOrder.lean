import Cimp.Issues.AutomationFold
import Mathlib.Data.List.Perm.Basic

namespace Cimp

open Execution

inductive AutomationCause
  | created
  | statusChanged (target : IssueStatus)
deriving DecidableEq, Repr

namespace AutomationService

/-- The rules that the query and the filter after it leave, in the order the rows came. -/
def matching (cause : AutomationCause) (platformId : Uuid) (rows : List AutomationRule) : List AutomationRule :=
  match cause with
  | .created => rulesForCreated rows platformId
  | .statusChanged target => rulesForStatusChanged rows platformId target

/-- Which database calls fail is a matter of the rule they are made for. -/
def callsOf (calls : AutomationRule → Env) (rules : List AutomationRule) (k : ℕ) : Env :=
  (rules[k]?).elim { now := 0 } calls

/-- `applyForCreated` and `applyForStatusChanged`. -/
def applyFor (cfg : Config) (calls : AutomationRule → Env) (cause : AutomationCause) (issueId platformId : Uuid)
    (rows : List AutomationRule) (db : Db) : Option AutomationRun :=
  let rules := matching cause platformId rows
  applyRules cfg (callsOf calls rules) issueId rules db

/-- Whatever order the rules come in, the issue ends with the same priority, assignee and labels. -/
def OrderFree (cfg : Config) (calls : AutomationRule → Env) (cause : AutomationCause) (issueId platformId : Uuid)
    (rows : List AutomationRule) (db : Db) : Prop :=
  ∀ rows₁ rows₂ run₁ run₂, rows₁.Perm rows → rows₂.Perm rows →
    applyFor cfg calls cause issueId platformId rows₁ db = some run₁ →
      applyFor cfg calls cause issueId platformId rows₂ db = some run₂ →
        run₁.db.triage issueId = run₂.db.triage issueId

section Decided

variable {cfg : Config} {calls : AutomationRule → Env} {db : Db} {issue : Issue} {rules : List AutomationRule}
  {a b : AutomationRule} {cause : AutomationCause} {platformId : Uuid} {rows : List AutomationRule}

def landing (cfg : Config) (calls : AutomationRule → Env) (db : Db) (issue : Issue) (rule : AutomationRule) : Bool :=
  lands cfg (calls rule) db issue.platform rule

def decided (cfg : Config) (calls : AutomationRule → Env) (db : Db) (issue : Issue) (rules : List AutomationRule) :
    Triage := (rules.filter (landing cfg calls db issue)).foldl (fun t rule => rule.effect t) (issue.triage db)

theorem decided_eq (cfg : Config) (calls : AutomationRule → Env) (db : Db) (issue : Issue) (rules : List AutomationRule) :
    (rules.zipIdx.filter fun item => lands cfg (callsOf calls rules item.2) db issue.platform item.1).foldl
      (fun t item => item.1.effect t) (issue.triage db) = decided cfg calls db issue rules := by
  have hcalls : rules.zipIdx.filter (fun item => lands cfg (callsOf calls rules item.2) db issue.platform item.1) =
      rules.zipIdx.filter (landing cfg calls db issue ∘ Prod.fst) := by
    apply List.filter_congr
    rintro ⟨rule, k⟩ hmem
    have hget : rules[k]? = some rule := by simpa using List.mem_zipIdx_iff_getElem?.mp hmem
    simp [callsOf, hget, landing]
  have hmap : (rules.zipIdx.filter (landing cfg calls db issue ∘ Prod.fst)).map Prod.fst =
      rules.filter (landing cfg calls db issue) := by
    rw [← List.filter_map, List.zipIdx_map_fst]
  rw [hcalls, decided, ← hmap, List.foldl_map]

theorem triage_applyFor {issueId : Uuid} (hissue : db.issues.findOne issueId = some issue) (cfg : Config)
    (calls : AutomationRule → Env) (cause : AutomationCause) (platformId : Uuid) (rows : List AutomationRule) :
    ∃ run, applyFor cfg calls cause issueId platformId rows db = some run ∧
      run.db.triage issueId = some (decided cfg calls db issue (matching cause platformId rows)) := by
  obtain rfl := Table.findOne_key hissue
  let rules := matching cause platformId rows
  have hstep : InStep db issue (exec (ruleStep cfg (callsOf calls rules)) _ rules.zipIdx)
      (exec (Ledger.step cfg (callsOf calls rules) db issue) _ rules.zipIdx) :=
    exec_simulates (fun _ _ item _ h => h.step item) (InStep.start hissue)
  refine ⟨_, applyRules_eq hissue cfg _ rules, ?_⟩
  have hstored := hstep.stored
  rw [ledger_triage, decided_eq] at hstored
  exact hstored

theorem orderFree_iff_decided {issueId : Uuid} (hissue : db.issues.findOne issueId = some issue) :
    OrderFree cfg calls cause issueId platformId rows db ↔ ∀ rows₁ rows₂, List.Perm rows₁ rows → List.Perm rows₂ rows →
      decided cfg calls db issue (matching cause platformId rows₁) =
        decided cfg calls db issue (matching cause platformId rows₂) := by
  constructor
  · intro h rows₁ rows₂ hperm₁ hperm₂
    obtain ⟨run₁, happly₁, htriage₁⟩ := triage_applyFor hissue cfg calls cause platformId rows₁
    obtain ⟨run₂, happly₂, htriage₂⟩ := triage_applyFor hissue cfg calls cause platformId rows₂
    have hsame := h rows₁ rows₂ run₁ run₂ hperm₁ hperm₂ happly₁ happly₂
    rw [htriage₁, htriage₂] at hsame
    exact Option.some.inj hsame
  · intro h rows₁ rows₂ run₁ run₂ hperm₁ hperm₂ happly₁ happly₂
    obtain ⟨_, hrun₁, htriage₁⟩ := triage_applyFor hissue cfg calls cause platformId rows₁
    obtain ⟨_, hrun₂, htriage₂⟩ := triage_applyFor hissue cfg calls cause platformId rows₂
    obtain rfl := Option.some.inj (happly₁.symm.trans hrun₁)
    obtain rfl := Option.some.inj (happly₂.symm.trans hrun₂)
    rw [htriage₁, htriage₂, h rows₁ rows₂ hperm₁ hperm₂]

/-- Two rules that would set one field to two values. -/
def Disagree (a b : AutomationRule) : Prop :=
  a.action = b.action ∧ a.action ≠ .addLabel ∧ a.actionValue ≠ b.actionValue

theorem effect_comm (h : ¬ Disagree a b) (t : Triage) : b.effect (a.effect t) = a.effect (b.effect t) := by
  have hvalue : a.action = b.action → a.action ≠ .addLabel → a.actionValue = b.actionValue := by
    intro haction hlabel
    by_contra hne
    exact h ⟨haction, hlabel, hne⟩
  cases ha : a.action <;> cases hb : b.action <;> simp only [AutomationRule.effect, ha, hb]
  · rw [hvalue (ha.trans hb.symm) (by simp [ha])]
  · rw [hvalue (ha.trans hb.symm) (by simp [ha])]
  · rw [Finset.insert_comm]

theorem effect_ne (h : Disagree a b) (ha : landing cfg calls db issue a = true) (hb : landing cfg calls db issue b = true)
    (t u : Triage) : a.effect t ≠ b.effect u := by
  obtain ⟨haction, hlabel, hvalue⟩ := h
  intro heffect
  cases hkind : a.action with
  | addLabel => exact hlabel hkind
  | assign =>
    have hassignee := congrArg Triage.assignee heffect
    simp only [AutomationRule.effect, hkind, ← haction, Option.some.injEq] at hassignee
    exact hvalue hassignee
  | setPriority =>
    have hpriority := congrArg Triage.priority heffect
    simp only [landing, lands, hkind, ← haction, Bool.and_eq_true] at ha hb
    obtain ⟨p, hp⟩ := Option.isSome_iff_exists.mp ha.1
    obtain ⟨q, hq⟩ := Option.isSome_iff_exists.mp hb.1
    simp only [AutomationRule.effect, hkind, ← haction, hp, hq, Option.getD_some] at hpriority
    apply hvalue
    rw [← Priority.value_of_ofValue hp, ← Priority.value_of_ofValue hq, hpriority]

theorem matching_append (cause : AutomationCause) (platformId : Uuid) (rows more : List AutomationRule) :
    matching cause platformId (rows ++ more) = matching cause platformId rows ++ matching cause platformId more := by
  cases cause <;> exact List.filter_append ..

theorem matching_perm (cause : AutomationCause) (platformId : Uuid) {rows' : List AutomationRule} (h : rows'.Perm rows) :
    (matching cause platformId rows').Perm (matching cause platformId rows) := by
  cases cause <;> exact h.filter _

theorem mem_of_matching (h : a ∈ matching cause platformId rows) :
    a ∈ rows ∧ matching cause platformId [a] = [a] := by
  cases cause with
  | created =>
    obtain ⟨hrow, hpasses⟩ := List.mem_filter.mp h
    exact ⟨hrow, List.filter_eq_self.mpr (List.forall_mem_singleton.mpr hpasses)⟩
  | statusChanged target =>
    obtain ⟨hrow, hpasses⟩ := List.mem_filter.mp h
    exact ⟨hrow, List.filter_eq_self.mpr (List.forall_mem_singleton.mpr hpasses)⟩

theorem exists_last (h : a ∈ matching cause platformId rows) (ha : landing cfg calls db issue a = true) :
    ∃ rows' t, rows'.Perm rows ∧ decided cfg calls db issue (matching cause platformId rows') = a.effect t := by
  obtain ⟨hrow, hmatches⟩ := mem_of_matching h
  refine ⟨rows.erase a ++ [a], decided cfg calls db issue (matching cause platformId (rows.erase a)), ?_, ?_⟩
  · exact (List.perm_append_singleton a (rows.erase a)).trans (List.perm_cons_erase hrow).symm
  · rw [matching_append, hmatches, decided, List.filter_append, List.filter_cons_of_pos ha, List.foldl_append]
    rfl

theorem orderFree_iff (cfg : Config) (calls : AutomationRule → Env) (cause : AutomationCause) (issueId platformId : Uuid)
    (rows : List AutomationRule) (db : Db) :
    OrderFree cfg calls cause issueId platformId rows db ↔ ∀ issue, db.issues.findOne issueId = some issue →
      ∀ a ∈ matching cause platformId rows, ∀ b ∈ matching cause platformId rows,
        landing cfg calls db issue a = true → landing cfg calls db issue b = true → ¬ Disagree a b := by
  constructor
  · intro h issue hissue a ha b hb hlands hlands' hdisagree
    rw [orderFree_iff_decided hissue] at h
    obtain ⟨rows₁, t, hperm₁, hlast₁⟩ := exists_last ha hlands
    obtain ⟨rows₂, u, hperm₂, hlast₂⟩ := exists_last hb hlands'
    have hsame := h rows₁ rows₂ hperm₁ hperm₂
    rw [hlast₁, hlast₂] at hsame
    exact effect_ne hdisagree hlands hlands' t u hsame
  · intro h
    cases hissue : db.issues.findOne issueId with
    | none =>
      intro rows₁ rows₂ run₁ run₂ _ _ happly
      simp [applyFor, applyRules, hissue] at happly
    | some issue =>
      rw [orderFree_iff_decided hissue]
      intro rows₁ rows₂ hperm₁ hperm₂
      have hperm := matching_perm cause platformId (hperm₁.trans hperm₂.symm)
      apply (hperm.filter _).foldl_eq'
      intro a ha b hb t
      obtain ⟨ha, hlands⟩ := List.mem_filter.mp ha
      obtain ⟨hb, hlands'⟩ := List.mem_filter.mp hb
      have hrows := matching_perm cause platformId hperm₁
      exact effect_comm (h issue hissue a (hrows.mem_iff.mp ha) b (hrows.mem_iff.mp hb) hlands hlands') t

end Decided

end AutomationService

namespace Sample

def priorityRule (id value : String) : AutomationRule := ⟨id, "P", true, .issueCreated, none, .setPriority, value⟩

def ruledIssue : Db := { Db.empty with issues := alreadyLabelled.issues }

end Sample

theorem AutomationService.last_rule_wins :
    ¬ AutomationService.OrderFree Sample.config (fun _ => { now := 1 }) .created "A" "P"
      [Sample.priorityRule "first" "HIGH", Sample.priorityRule "second" "LOW"] Sample.ruledIssue := by
  intro h
  have hsame := h [Sample.priorityRule "first" "HIGH", Sample.priorityRule "second" "LOW"]
    [Sample.priorityRule "second" "LOW", Sample.priorityRule "first" "HIGH"] _ _ (List.Perm.refl _)
    (List.Perm.swap _ _ _) rfl rfl
  revert hsame
  decide

end Cimp
