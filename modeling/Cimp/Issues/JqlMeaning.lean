import Mathlib.Data.List.Flatten
import Cimp.Issues.ListQuery

namespace Cimp.ListQuery

open Jql Sql

def Predicate.names : Predicate → List String
  | eq _ name | ne _ name | isIn _ name | ilike _ name | compare _ _ name | tsMatch name | labelled name => [name]
  | isNull _ | isNotNull _ | noVector => []

variable {pg : Postgres} {row : Row pg.ts} {env env' : Env} {p : Predicate} {text : Text} {c : Fragment}

theorem Predicate.truth_congr (h : ∀ name ∈ p.names, env name = env' name) :
    p.truth pg env row = p.truth pg env' row := by
  cases p <;> simp_all [Predicate.names, Predicate.truth, Env.text, Env.list]

theorem Predicate.binds_congr (h : ∀ name ∈ p.names, env name = env' name) : p.binds pg env = p.binds pg env' := by
  cases p <;> simp_all [Predicate.names, Predicate.binds, Env.text, Env.list]

/-- What `selects_iff` asks of the text of an `andWhere`. -/
structure Fragment.Sound (c : Fragment) : Prop where
  conjunct : ∀ v : Predicate → Truth, ∃ t, Conjunct v c.sql t
  closed : ∀ p, .atom p ∈ c.sql → ∀ name ∈ p.names, name ∈ c.params.map Prod.fst

/-- The environment gives the parameters of the fragment their values. -/
def Agrees (env : Env) (c : Fragment) : Prop := ∀ p ∈ c.params, env p.1 = some p.2

/-- The row passes the fragment, read on its own. -/
def Fragment.Passes (c : Fragment) (pg : Postgres) (env : Env) (row : Row pg.ts) : Prop :=
  bindsText pg env c.sql = true ∧ Holds (Predicate.truth pg env row) [c.sql]

theorem bindsText_iff : bindsText pg env text = true ↔ ∀ p, .atom p ∈ text → p.binds pg env = true := by
  rw [bindsText, List.all_eq_true]
  constructor
  · exact fun h p hp => h _ hp
  · intro h w hw
    cases w with
    | atom p => exact h p hw
    | _ => rfl

theorem Fragment.Sound.passes_congr (hc : c.Sound) (h : Agrees env c) (h' : Agrees env' c) :
    c.Passes pg env row ↔ c.Passes pg env' row := by
  have hname : ∀ p, .atom p ∈ c.sql → ∀ name ∈ p.names, env name = env' name := by
    intro p hp name hname
    obtain ⟨q, hq, rfl⟩ := List.mem_map.mp (hc.closed p hp name hname)
    rw [h q hq, h' q hq]
  have hbinds : bindsText pg env c.sql = true ↔ bindsText pg env' c.sql = true := by
    rw [bindsText_iff, bindsText_iff]
    exact forall₂_congr fun p hp => by rw [Predicate.binds_congr (hname p hp)]
  rw [Passes, Passes, hbinds, holds_congr fun p hp => Predicate.truth_congr (hname p hp)]

variable {cs cs' : List Fragment} {qb : Builder}

theorem foldl_andWhere (qb : Builder) (cs : List Fragment) :
    cs.foldl Builder.andWhere qb =
      ⟨qb.wheres ++ cs.map Fragment.sql, (cs.reverse.flatMap Fragment.params) ++ qb.params⟩ := by
  induction cs generalizing qb with
  | nil => simp
  | cons c cs ih => simp [ih, Builder.andWhere]

/-- The builder with these calls of `andWhere`. -/
def Builder.of (cs : List Fragment) : Builder := cs.foldl Builder.andWhere .empty

def names (cs : List Fragment) : List String := (cs.flatMap Fragment.params).map Prod.fst

theorem names_append : names (cs ++ cs') = names cs ++ names cs' := by
  rw [names, List.flatMap_append, List.map_append]
  rfl

theorem of_wheres : (Builder.of cs).wheres = cs.map Fragment.sql := by
  simp [Builder.of, foldl_andWhere, Builder.empty]

theorem of_params : (Builder.of cs).params = cs.reverse.flatMap Fragment.params := by
  simp [Builder.of, foldl_andWhere, Builder.empty]

theorem lookup_of_nodup {α : Type} {l : List (String × α)} {k : String} {v : α} (hl : (l.map Prod.fst).Nodup)
    (h : (k, v) ∈ l) : l.lookup k = some v := by
  obtain ⟨before, after, rfl⟩ := List.append_of_mem h
  apply List.lookup_eq_some_iff.mpr
  refine ⟨before, after, rfl, ?_⟩
  intro p hp
  rw [List.map_append, List.map_cons] at hl
  have hne := (List.nodup_append.mp hl).2.2 p.1 (List.mem_map_of_mem hp) k List.mem_cons_self
  simpa using hne.symm

theorem params_perm (cs : List Fragment) : (Builder.of cs).params.Perm (cs.flatMap Fragment.params) := by
  rw [of_params]
  exact (List.reverse_perm cs).flatMap_right _

theorem names_perm (cs : List Fragment) : ((Builder.of cs).params.map Prod.fst).Perm (names cs) :=
  (params_perm cs).map Prod.fst

theorem agrees_of_nodup (hnames : (names cs).Nodup) (hc : c ∈ cs) : Agrees (Builder.of cs).env c := by
  intro p hp
  apply lookup_of_nodup ((names_perm cs).nodup_iff.mpr hnames)
  rw [(params_perm cs).mem_iff]
  exact List.mem_flatMap_of_mem hc hp

theorem selects_iff_passes (hsound : ∀ c ∈ cs, c.Sound) :
    (Builder.of cs).Selects pg row ↔ ∀ c ∈ cs, c.Passes pg (Builder.of cs).env row := by
  have hconjunct : ∀ text ∈ cs.map Fragment.sql, ∃ t, Conjunct (Predicate.truth pg (Builder.of cs).env row) text t :=
    List.forall_mem_map.mpr fun c hc => (hsound c hc).conjunct _
  rw [Builder.Selects, of_wheres, holds_iff hconjunct, List.forall_mem_map, List.forall_mem_map]
  exact forall₂_and.symm

theorem selects_iff (hsound : ∀ c ∈ cs, c.Sound) (hnames : (names cs).Nodup) :
    (Builder.of cs).Selects pg row ↔ ∀ c ∈ cs, (Builder.of [c]).Selects pg row := by
  rw [selects_iff_passes hsound]
  refine forall₂_congr fun c hc => ?_
  have hsub : (names [c]).Sublist (names cs) := ((List.singleton_sublist.mpr hc).flatMap _).map Prod.fst
  have halone := agrees_of_nodup (hnames.sublist hsub) (List.mem_singleton_self c)
  rw [selects_iff_passes (List.forall_mem_singleton.mpr (hsound c hc)), List.forall_mem_singleton]
  exact (hsound c hc).passes_congr (agrees_of_nodup hnames hc) halone

/-- What a filter asks of a row. -/
def comparedAsks (s : Option String) (op : JqlOp) (values : List String) : Prop :=
  ∃ x, s = some x ∧
    match op with
    | .isIn => x ∈ values
    | .compare .eq => x = values.headD ""
    | _ => x ≠ values.headD ""

def assigneeIs (pg : Postgres) (staffId : Uuid) (assignee : Option StaffUser) (v : String) : Prop :=
  if v = "me" then ∃ a, assignee = some a ∧ a.id = staffId
  else if v = "unassigned" then assignee = none
  else ∃ a, assignee = some a ∧ pg.lowered a.name = v

def assigneeAsks (pg : Postgres) (staffId : Uuid) (assignee : Option StaffUser) (op : JqlOp)
    (values lower : List String) : Prop :=
  match op with
  | .compare .contains => ∃ a, assignee = some a ∧ pg.ilike a.name (like (values.headD "")) = true
  | .isIn => ∃ a, assignee = some a ∧ pg.lowered a.name ∈ lower
  | op =>
    if op = .compare .eq then assigneeIs pg staffId assignee (lower.headD "")
    else ¬ assigneeIs pg staffId assignee (lower.headD "")

def reporterAsks (pg : Postgres) (reporter : Option Reporter) (op : JqlOp) (values lower : List String) : Prop :=
  ∃ r, reporter = some r ∧
    match op with
    | .compare .contains =>
      pg.ilike r.name (like (values.headD "")) = true ∨ pg.ilike r.email (like (values.headD "")) = true
    | .compare .eq => pg.lowered r.name = lower.headD "" ∨ pg.lowered r.email = lower.headD ""
    | _ => ¬ (pg.lowered r.name = lower.headD "" ∨ pg.lowered r.email = lower.headD "")

def labelAsks (pg : Postgres) (labels : List Label) (op : JqlOp) (lower : List String) : Prop :=
  if op = .compare .ne then ¬ ∃ l ∈ labels, pg.lowered l.name ∈ lower else ∃ l ∈ labels, pg.lowered l.name ∈ lower

def timeAsks (pg : Postgres) (t : Time) (op : JqlOp) (v : String) : Prop :=
  ∃ u, pg.timestamptz v = some u ∧ (op = .compare .ge ∧ u ≤ t ∨ op = .compare .le ∧ t ≤ u)

def textAsks (pg : Postgres) (js : Runtime) (row : Row pg.ts) (v : String) : Prop :=
  let tsq := buildPrefixTsQuery js.toLowerCase v
  pg.ilike row.issue.referenceNo (like (escaped v)) = true ∨
    if tsq ≠ "" then
      (∃ vector, row.searchVector = some vector ∧ pg.ts.tsMatch vector (pg.ts.toTsquery tsq) = true) ∨
        row.searchVector = none ∧ pg.ilike row.issue.description (like (escaped v)) = true
    else pg.ilike row.issue.description (like (escaped v)) = true

def Asks (pg : Postgres) (js : Runtime) (staffId : Uuid) (row : Row pg.ts) (f : JqlFilter) : Prop :=
  let lower := f.values.map js.toLowerCase
  match f.field with
  | "status" => comparedAsks (some row.issue.status.value) f.op f.values
  | "priority" => comparedAsks (some row.issue.priority.value) f.op f.values
  | "platform" => comparedAsks (row.platform.map Platform.key) f.op lower
  | "assignee" => assigneeAsks pg staffId row.assignee f.op f.values lower
  | "reporter" => reporterAsks pg row.reporter f.op f.values lower
  | "label" => labelAsks pg row.labels f.op lower
  | "created" => timeAsks pg row.issue.createdAt f.op (f.values.headD "")
  | "updated" => timeAsks pg row.issue.updatedAt f.op (f.values.headD "")
  | "text" => textAsks pg js row (f.values.headD "")
  | _ => False

/-- The fragment is sound, and a row passes it, under whatever numbers its parameters have, when `P` holds. -/
structure Means (P : (pg : Postgres) → Row pg.ts → Prop) (n : ℕ) (c : Fragment) : Prop where
  sound : c.Sound
  names : c.params.map Prod.fst = (List.range' n c.params.length).map paramName
  passes : ∀ pg row env, Agrees env c → (c.Passes pg env row ↔ P pg row)

variable {n : ℕ} {o : Operand} {op : JqlOp} {values lower : List String} {js : Runtime} {staffId : Uuid}
  {P : (pg : Postgres) → Row pg.ts → Prop}

theorem Means.intro {value : (Predicate → Truth) → Truth} (hconjunct : ∀ v, Conjunct v c.sql (value v))
    (hclosed : ∀ p, .atom p ∈ c.sql → ∀ name ∈ p.names, name ∈ c.params.map Prod.fst)
    (hnames : c.params.map Prod.fst = (List.range' n c.params.length).map paramName)
    (h : ∀ pg row env, Agrees env c →
      (bindsText pg env c.sql = true ∧ value (Predicate.truth pg env row) = some true ↔ P pg row)) :
    Means P n c where
  sound := ⟨fun v => ⟨_, hconjunct v⟩, hclosed⟩
  names := hnames
  passes pg row env henv := by
    rw [Fragment.Passes, (hconjunct _).holds_iff]
    exact h pg row env henv

theorem means_atom {param : Param} (p : Predicate) (hp : p.names = [paramName n])
    (h : ∀ pg row env, env (paramName n) = some param →
      (p.binds pg env = true ∧ p.truth pg env row = some true ↔ P pg row)) :
    Means P n ⟨[.atom p], [(paramName n, param)]⟩ := by
  refine .intro (fun v => .atom v p) ?_ rfl fun pg row env henv => ?_
  · simp [hp]
  · simpa [bindsText] using h pg row env (henv _ List.mem_cons_self)

section Evaluation

variable {name v : String} {vs : List String} (pg) (row)

theorem truth_eq (h : env name = some (.text v)) (o : Operand) :
    (Predicate.eq o name).truth pg env row = some true ↔ ∃ x, o.value pg row = some x ∧ x = v := by
  cases ho : o.value pg row <;> simp [Predicate.truth, Env.text, h, ho]

theorem truth_ne (h : env name = some (.text v)) (o : Operand) :
    (Predicate.ne o name).truth pg env row = some true ↔ ∃ x, o.value pg row = some x ∧ x ≠ v := by
  cases ho : o.value pg row <;> simp [Predicate.truth, Env.text, h, ho]

theorem truth_isIn (h : env name = some (.list vs)) (o : Operand) :
    (Predicate.isIn o name).truth pg env row = some true ↔ ∃ x, o.value pg row = some x ∧ x ∈ vs := by
  cases ho : o.value pg row <;> simp [Predicate.truth, Env.list, h, ho]

theorem truth_ilike (h : env name = some (.text v)) (c : Column) :
    (Predicate.ilike c name).truth pg env row = some true ↔ ∃ x, c.value row = some x ∧ pg.ilike x v = true := by
  cases hc : c.value row <;> simp [Predicate.truth, Env.text, h, hc]

theorem truth_isNull (c : Column) :
    (Predicate.isNull c).truth pg env row = some true ↔ c.value row = none := by
  cases hc : c.value row <;> simp [Predicate.truth, hc]

theorem truth_isNotNull (c : Column) :
    (Predicate.isNotNull c).truth pg env row = some true ↔ ¬ c.value row = none := by
  cases hc : c.value row <;> simp [Predicate.truth, hc]

theorem truth_labelled (h : env name = some (.list vs)) :
    (Predicate.labelled name).truth pg env row = some (decide (∃ l ∈ row.labels, pg.lowered l.name ∈ vs)) := by
  simp [Predicate.truth, Env.list, h, List.any_eq]

theorem truth_tsMatch (h : env name = some (.text v)) :
    (Predicate.tsMatch name).truth pg env row = some true ↔
      ∃ vector, row.searchVector = some vector ∧ pg.ts.tsMatch vector (pg.ts.toTsquery v) = true := by
  cases hv : row.searchVector <;> simp [Predicate.truth, Env.text, h, hv]

theorem truth_noVector : Predicate.noVector.truth pg env row = some true ↔ row.searchVector = none := by
  simp [Predicate.truth]

theorem time_passes (h : env name = some (.text v)) (c : TimeColumn) (op : JqlOp) :
    (Predicate.compare c op name).binds pg env = true ∧ (Predicate.compare c op name).truth pg env row = some true ↔
      timeAsks pg (c.value row) op v := by
  cases ht : pg.timestamptz v with
  | none => simp [Predicate.binds, Env.text, h, ht, timeAsks]
  | some u =>
    simp only [Predicate.binds, Predicate.truth, Env.text, h, Option.bind_some, ht, Option.isSome_some, Bool.true_and,
      decide_eq_true_eq, timeAsks, Option.some_inj, exists_eq_left']
    cases op with
    | isIn => simp [compares]
    | compare comparison => cases comparison <;> simp [compares]

end Evaluation

theorem means_eq (o : Operand) (v : String) (n : ℕ) :
    Means (fun pg row => ∃ x, o.value pg row = some x ∧ x = v) n
      ⟨[.atom (.eq o (paramName n))], [(paramName n, .text v)]⟩ := by
  refine means_atom _ rfl fun pg row env henv => ?_
  rw [truth_eq pg row henv, and_iff_right (by simp [Predicate.binds, Env.text, henv])]

theorem means_ne (o : Operand) (v : String) (n : ℕ) :
    Means (fun pg row => ∃ x, o.value pg row = some x ∧ x ≠ v) n
      ⟨[.atom (.ne o (paramName n))], [(paramName n, .text v)]⟩ := by
  refine means_atom _ rfl fun pg row env henv => ?_
  rw [truth_ne pg row henv, and_iff_right (by simp [Predicate.binds, Env.text, henv])]

theorem means_isIn (o : Operand) (vs : List String) (n : ℕ) :
    Means (fun pg row => ∃ x, o.value pg row = some x ∧ x ∈ vs) n
      ⟨[.atom (.isIn o (paramName n))], [(paramName n, .list vs)]⟩ := by
  refine means_atom _ rfl fun pg row env henv => ?_
  rw [truth_isIn pg row henv, and_iff_right (by simp [Predicate.binds, Env.list, henv])]

theorem means_ilike (c : Column) (v : String) (n : ℕ) :
    Means (fun pg row => ∃ x, c.value row = some x ∧ pg.ilike x v = true) n
      ⟨[.atom (.ilike c (paramName n))], [(paramName n, .text v)]⟩ := by
  refine means_atom _ rfl fun pg row env henv => ?_
  rw [truth_ilike pg row henv, and_iff_right (by simp [Predicate.binds, Env.text, henv])]

theorem means_paren {param : Param} {p q : Predicate} (connective : Word Predicate)
    (combine : Truth → Truth → Truth)
    (hmeaning : ∀ v : Predicate → Truth, meaning v [.atom p, connective, .atom q] = some (combine (v p) (v q)))
    (hconnective : ∀ r, connective ≠ .atom r)
    (hp : ∀ name ∈ p.names, name = paramName n) (hq : ∀ name ∈ q.names, name = paramName n)
    (h : ∀ pg row env, env (paramName n) = some param → p.binds pg env = true ∧ q.binds pg env = true ∧
      (combine (p.truth pg env row) (q.truth pg env row) = some true ↔ P pg row)) :
    Means P n ⟨[.lparen, .atom p, connective, .atom q, .rparen], [(paramName n, param)]⟩ := by
  refine .intro (fun v => .paren (hmeaning v)) ?_ rfl fun pg row env henv => ?_
  · intro r hr name hname
    simp only [List.mem_cons, Word.atom.injEq, List.not_mem_nil, or_false] at hr
    rcases hr with hr | rfl | hr | rfl | hr
    · cases hr
    · simp [hp name hname]
    · exact absurd hr.symm (hconnective r)
    · simp [hq name hname]
    · cases hr
  · obtain ⟨hbp, hbq, htruth⟩ := h pg row env (henv _ List.mem_cons_self)
    rw [htruth, and_iff_right]
    rw [bindsText_iff]
    intro r hr
    simp only [List.mem_cons, Word.atom.injEq, List.not_mem_nil, or_false] at hr
    rcases hr with hr | rfl | hr | rfl | hr
    · cases hr
    · exact hbp
    · exact absurd hr.symm (hconnective r)
    · exact hbq
    · cases hr

theorem means_compared (o : Operand) (op : JqlOp) (values : List String) (n : ℕ) :
    Means (fun pg row => comparedAsks (o.value pg row) op values) n (comparedClause o op values n) := by
  cases op with
  | isIn => exact means_isIn o values n
  | compare comparison =>
    cases comparison with
    | eq => exact means_eq o (values.headD "") n
    | _ => exact means_ne o (values.headD "") n

theorem Means.iff {Q : (pg : Postgres) → Row pg.ts → Prop} (h : Means P n c) (hiff : ∀ pg row, P pg row ↔ Q pg row) :
    Means Q n c where
  sound := h.sound
  names := h.names
  passes pg row env henv := (h.passes pg row env henv).trans (hiff pg row)

theorem exists_map_eq {α β : Type} {x : Option α} {f : α → β} {Q : β → Prop} :
    (∃ b, x.map f = some b ∧ Q b) ↔ ∃ a, x = some a ∧ Q (f a) := by
  cases x <;> simp

theorem exists_lowered {α : Type} {x : Option α} {f : α → String} {Q : String → Prop} :
    (∃ b, (x.map f).map pg.lowered = some b ∧ Q b) ↔ ∃ a, x = some a ∧ Q (pg.lowered (f a)) := by
  rw [exists_map_eq, exists_map_eq]

theorem null_or_not {α : Type} {x : Option α} {Q : α → Prop} :
    (x = none ∨ ∃ a, x = some a ∧ ¬ Q a) ↔ ¬ ∃ a, x = some a ∧ Q a := by
  cases x <;> simp

theorem means_unassigned (p : Predicate) (hp : p.names = []) (hbinds : ∀ pg env, p.binds pg env = true)
    (htruth : ∀ pg row env, p.truth pg env row = some true ↔ P pg row) (n : ℕ) : Means P n ⟨[.atom p], []⟩ := by
  refine .intro (fun v => .atom v p) ?_ rfl fun pg row env _ => ?_
  · simp [hp]
  · simp [bindsText, hbinds, htruth]

theorem means_null_or_ne (o : Operand) (v : String) (n : ℕ) :
    Means (fun pg row => row.assignee = none ∨ ∃ x, o.value pg row = some x ∧ x ≠ v) n
      ⟨[.lparen, .atom (.isNull .assigneeId), .or, .atom (.ne o (paramName n)), .rparen],
        [(paramName n, .text v)]⟩ := by
  refine means_paren .or Truth.or (fun v => meaning_or v _ _) (by simp) (by simp [Predicate.names]) (by simp [Predicate.names])
    fun pg row env henv => ⟨rfl, by simp [Predicate.binds, Env.text, henv], ?_⟩
  rw [Truth.or_eq_true, truth_ne pg row henv, truth_isNull]
  simp [Column.value]

theorem means_assigneeEquality (staffId : Uuid) (op : JqlOp) (v : String) (n : ℕ) :
    Means (fun pg row =>
        if op = .compare .eq then assigneeIs pg staffId row.assignee v else ¬ assigneeIs pg staffId row.assignee v) n
      (assigneeEquality staffId op v n) := by
  unfold assigneeIs assigneeEquality
  by_cases hme : v = "me"
  · by_cases hop : op = .compare .eq
    · simp only [if_pos hme, if_pos hop]
      exact (means_eq (.column .assigneeId) staffId n).iff fun _ _ => exists_map_eq
    · simp only [if_pos hme, if_neg hop]
      exact (means_null_or_ne (.column .assigneeId) staffId n).iff
        fun _ _ => (or_congr_right exists_map_eq).trans null_or_not
  · by_cases hnone : v = "unassigned"
    · by_cases hop : op = .compare .eq
      · simp only [if_neg hme, if_pos hnone, if_pos hop]
        refine means_unassigned _ rfl (fun _ _ => rfl) (fun pg row env => ?_) n
        rw [truth_isNull]
        exact Option.map_eq_none_iff
      · simp only [if_neg hme, if_pos hnone, if_neg hop]
        refine means_unassigned _ rfl (fun _ _ => rfl) (fun pg row env => ?_) n
        rw [truth_isNotNull]
        exact not_congr Option.map_eq_none_iff
    · by_cases hop : op = .compare .eq
      · simp only [if_neg hme, if_neg hnone, if_pos hop]
        exact (means_eq (.lower .assigneeName) _ n).iff fun _ _ => exists_lowered
      · simp only [if_neg hme, if_neg hnone, if_neg hop]
        exact (means_null_or_ne (.lower .assigneeName) v n).iff
          fun _ _ => (or_congr_right exists_lowered).trans null_or_not

theorem means_assignee (staffId : Uuid) (op : JqlOp) (values lower : List String) (n : ℕ) :
    Means (fun pg row => assigneeAsks pg staffId row.assignee op values lower) n
      (assigneeClause staffId op values lower n) := by
  cases op with
  | isIn => exact (means_isIn (.lower .assigneeName) lower n).iff fun _ _ => exists_lowered
  | compare comparison =>
    cases comparison with
    | contains => exact (means_ilike .assigneeName _ n).iff fun _ _ => exists_map_eq
    | eq => exact means_assigneeEquality staffId (.compare .eq) (lower.headD "") n
    | ne => exact means_assigneeEquality staffId (.compare .ne) (lower.headD "") n
    | ge => exact means_assigneeEquality staffId (.compare .ge) (lower.headD "") n
    | le => exact means_assigneeEquality staffId (.compare .le) (lower.headD "") n

theorem means_reporter (op : JqlOp) (values lower : List String) (n : ℕ) :
    Means (fun pg row => reporterAsks pg row.reporter op values lower) n (reporterClause op values lower n) := by
  have hne : Means (fun pg row => ∃ r, row.reporter = some r ∧
      ¬ (pg.lowered r.name = lower.headD "" ∨ pg.lowered r.email = lower.headD "")) n
      ⟨[.lparen, .atom (.ne (.lower .reporterName) (paramName n)), .and,
        .atom (.ne (.lower .reporterEmail) (paramName n)), .rparen], [(paramName n, .text (lower.headD ""))]⟩ := by
    refine means_paren .and Truth.and (fun v => meaning_and v _ _) (by simp) (by simp [Predicate.names])
      (by simp [Predicate.names]) fun pg row env henv =>
        ⟨by simp [Predicate.binds, Env.text, henv], by simp [Predicate.binds, Env.text, henv], ?_⟩
    rw [Truth.and_eq_true, truth_ne pg row henv, truth_ne pg row henv]
    cases hr : row.reporter <;> simp [Operand.value, Column.value, hr]
  cases op with
  | isIn => exact hne
  | compare comparison =>
    cases comparison with
    | contains =>
      refine means_paren .or Truth.or (fun v => meaning_or v _ _) (by simp) (by simp [Predicate.names])
        (by simp [Predicate.names]) fun pg row env henv =>
          ⟨by simp [Predicate.binds, Env.text, henv], by simp [Predicate.binds, Env.text, henv], ?_⟩
      rw [Truth.or_eq_true, truth_ilike pg row henv, truth_ilike pg row henv]
      cases hr : row.reporter <;> simp [Column.value, hr, reporterAsks]
    | eq =>
      refine means_paren .or Truth.or (fun v => meaning_or v _ _) (by simp) (by simp [Predicate.names])
        (by simp [Predicate.names]) fun pg row env henv =>
          ⟨by simp [Predicate.binds, Env.text, henv], by simp [Predicate.binds, Env.text, henv], ?_⟩
      rw [Truth.or_eq_true, truth_eq pg row henv, truth_eq pg row henv]
      cases hr : row.reporter <;> simp [Operand.value, Column.value, hr, reporterAsks]
    | ne => exact hne
    | ge => exact hne
    | le => exact hne

theorem means_label (op : JqlOp) (lower : List String) (n : ℕ) :
    Means (fun pg row => labelAsks pg row.labels op lower) n (labelClause op lower n) := by
  unfold labelClause labelAsks
  by_cases hop : op = .compare .ne
  · simp only [if_pos hop]
    refine .intro (fun v => .not_atom v _) (by simp [Predicate.names]) rfl fun pg row env henv => ?_
    have hlist : env (paramName n) = some (.list lower) := henv _ List.mem_cons_self
    rw [Truth.not_eq_true, truth_labelled pg row hlist, and_iff_right (by simp [bindsText, Predicate.binds, Env.list, hlist])]
    simp
  · simp only [if_neg hop]
    refine means_atom _ rfl fun pg row env henv => ?_
    rw [truth_labelled pg row henv, and_iff_right (by simp [Predicate.binds, Env.list, henv])]
    simp

theorem means_time (column : TimeColumn) (op : JqlOp) (values : List String) (n : ℕ) :
    Means (fun pg row => timeAsks pg (column.value row) op (values.headD "")) n (timeClause column op values n) :=
  means_atom _ rfl fun pg row _ henv => time_passes pg row henv column op

theorem meaning_text (v : Predicate → Truth) (a b c d : Predicate) :
    meaning v [.atom a, .or, .atom b, .or, .lparen, .atom c, .and, .atom d, .rparen] =
      some (((v a).or (v b)).or ((v c).and (v d))) := by
  simp [meaning, advance, Reading.value, Frame.factor, Frame.disjunct, Frame.start, Frame.value]

theorem means_textClause (js : Runtime) (values : List String) (n : ℕ) :
    Means (fun pg row => textAsks pg js row (values.headD "")) n (textClause js values n) := by
  unfold textAsks textClause
  by_cases htsq : buildPrefixTsQuery js.toLowerCase (values.headD "") ≠ ""
  · simp only [if_pos htsq]
    refine .intro (fun v => .paren (meaning_text v _ _ _ _)) (by simp [Predicate.names]) rfl fun pg row env henv => ?_
    have hlike := henv _ List.mem_cons_self
    have htq := henv _ (List.mem_cons_of_mem _ List.mem_cons_self)
    rw [Truth.or_eq_true, Truth.or_eq_true, Truth.and_eq_true, truth_ilike pg row hlike, truth_tsMatch pg row htq,
      truth_noVector, truth_ilike pg row hlike]
    simp [bindsText, Predicate.binds, Env.text, hlike, htq, Column.value, or_assoc]
  · simp only [if_neg htsq]
    refine means_paren .or Truth.or (fun v => meaning_or v _ _) (by simp) (by simp [Predicate.names])
      (by simp [Predicate.names]) fun pg row env henv =>
        ⟨by simp [Predicate.binds, Env.text, henv], by simp [Predicate.binds, Env.text, henv], ?_⟩
    rw [Truth.or_eq_true, truth_ilike pg row henv, truth_ilike pg row henv]
    simp [Column.value]

theorem mem_fields {field : String} {spec : FieldSpec} (h : fields.lookup field = some spec) :
    field ∈ ["status", "priority", "platform", "assignee", "reporter", "label", "created", "updated", "text"] :=
  List.mem_map_of_mem (f := Prod.fst) (mem_of_lookup h)

/-- Every filter that the parser returns has a clause, and the clause asks of a row what the filter does. -/
theorem means_jqlClause {f : JqlFilter} {spec : FieldSpec} (h : fields.lookup f.field = some spec) (js : Runtime)
    (staffId : Uuid) (n : ℕ) :
    ∃ c, jqlClause js staffId n f = .ok c ∧ Means (fun pg row => Asks pg js staffId row f) n c := by
  obtain ⟨field, op, values⟩ := f
  have hfield := mem_fields h
  simp only [List.mem_cons, List.not_mem_nil, or_false] at hfield
  rcases hfield with rfl | rfl | rfl | rfl | rfl | rfl | rfl | rfl | rfl
  · exact ⟨_, rfl, means_compared (.column .status) op values n⟩
  · exact ⟨_, rfl, means_compared (.column .priority) op values n⟩
  · exact ⟨_, rfl, means_compared (.column .platformKey) op _ n⟩
  · exact ⟨_, rfl, means_assignee staffId op values _ n⟩
  · exact ⟨_, rfl, means_reporter op values _ n⟩
  · exact ⟨_, rfl, means_label op _ n⟩
  · exact ⟨_, rfl, means_time .createdAt op values n⟩
  · exact ⟨_, rfl, means_time .updatedAt op values n⟩
  · exact ⟨_, rfl, means_textClause js values n⟩

end Cimp.ListQuery
