import Cimp.Issues.Concurrent

namespace Cimp

open Execution

def AuditEvent.breached (i : Uuid) (e : AuditEvent) : Bool :=
  e.issue = some i && e.action = "SLA_BREACHED"

def AuditEvent.reopened (i : Uuid) (e : AuditEvent) : Bool :=
  e.issue = some i && e.field = some "status" && e.newValue = some IssueStatus.reopened.value

def IssueEvent.breached (i : Uuid) : IssueEvent → Bool
  | .slaBreached j _ => j = i
  | _ => false

def breachesThisCycle (i : Uuid) (audit : List AuditEvent) : ℕ :=
  audit.foldl (fun n e => if e.reopened i then 0 else if e.breached i then n + 1 else n) 0

def breachRows (i : Uuid) (audit : List AuditEvent) : ℕ := audit.countP (AuditEvent.breached i)

def breachEvents (i : Uuid) (events : List IssueEvent) : ℕ := events.countP (IssueEvent.breached i)

theorem breachesThisCycle_append (i : Uuid) (audit more : List AuditEvent)
    (h : ∀ e ∈ more, e.breached i = false) :
    breachesThisCycle i (audit ++ more) =
      if more.any (AuditEvent.reopened i) then 0 else breachesThisCycle i audit := by
  rw [breachesThisCycle, List.foldl_append]
  generalize hn : audit.foldl _ 0 = n
  have hn' : breachesThisCycle i audit = n := hn
  rw [hn']
  clear hn hn'
  induction more generalizing n with
  | nil => rfl
  | cons e more ih =>
    have hmore : ∀ e ∈ more, e.breached i = false := fun e he => h e (List.mem_cons_of_mem _ he)
    have he : e.breached i = false := h e List.mem_cons_self
    rw [List.foldl_cons, ih hmore, List.any_cons, he]
    cases e.reopened i <;> simp

theorem breachesThisCycle_concat (i : Uuid) (audit : List AuditEvent) (e : AuditEvent)
    (h : e.reopened i = false) :
    breachesThisCycle i (audit ++ [e]) =
      breachesThisCycle i audit + if e.breached i then 1 else 0 := by
  simp only [breachesThisCycle, List.foldl_append, List.foldl_cons, List.foldl_nil, h]
  cases e.breached i <;> simp

def Write.reopens (w : Write) : Bool :=
  w.audit.any fun a => a.field = some "status" && a.newValue = some IssueStatus.reopened.value

theorem IssueStatus.value_eq_reopened {s : IssueStatus} :
    s.value = IssueStatus.reopened.value ↔ s = .reopened := by cases s <;> decide

theorem Write.reopens_statusWrite (now : Time) (staff : AuthenticatedStaff) (issue : IssueEntity)
    (target : IssueStatus) :
    (IssuesService.statusWrite now staff issue target).reopens = decide (target = .reopened) := by
  simp [reopens, IssuesService.statusWrite, IssueStatus.value_eq_reopened]

theorem Write.reopens_webhookWrite (now : Time) (issue : IssueEntity) (target : IssueStatus) :
    (JiraInboundService.webhookWrite now issue target).reopens = decide (target = .reopened) := by
  simp [reopens, JiraInboundService.webhookWrite, IssueStatus.value_eq_reopened]

namespace Request.Loads

variable {now : Time} {db : Db} {r : Request} {w : Write}

theorem events (h : Loads now db r w) (i : Uuid) : ∀ e ∈ w.events, e.breached i = false := by
  cases h with
  | merge => simp [MergeService.mergeWrite, IssueEvent.breached]
  | changeStatus => simp [IssuesService.statusWrite, IssueEvent.breached]
  | changePriority => simp [IssuesService.priorityWrite, IssueEvent.breached]
  | changeAssignment => simp [IssuesService.assignmentWrite, IssueEvent.breached]
  | webhook => simp [JiraInboundService.webhookWrite]

theorem not_breached (h : Loads now db r w) (at' : Time) (i : Uuid) :
    ∀ e ∈ w.audit.map (AuditInput.toEvent at'), e.breached i = false := by
  intro e he
  obtain ⟨a, ha, rfl⟩ := List.mem_map.mp he
  simp [AuditEvent.breached, AuditInput.toEvent, (h.audit a ha).2]

theorem any_reopened (h : Loads now db r w) (at' : Time) (i : Uuid) :
    (w.audit.map (AuditInput.toEvent at')).any (AuditEvent.reopened i) =
      (decide (w.issue.id = i) && w.reopens) := by
  have haudit := h.audit
  rw [List.any_map, Write.reopens]
  generalize w.audit = audit at haudit
  induction audit with
  | nil => simp
  | cons a audit ih =>
    have hissue := (haudit a List.mem_cons_self).1
    rw [List.any_cons, List.any_cons, ih fun b hb => haudit b (List.mem_cons_of_mem _ hb)]
    by_cases hi : w.issue.id = i
    · simp [AuditEvent.reopened, AuditInput.toEvent, hissue, hi]
    · simp [AuditEvent.reopened, AuditInput.toEvent, hissue, hi]

theorem sla (h : Loads now db r w) : ∃ row, db.issues.findOne w.issue.id = some row ∧
    w.issue.createdAt = row.createdAt ∧
      if w.reopens then w.issue.slaStartedAt = now ∧ w.issue.slaBreachedAt = none
      else w.issue.slaStartedAt = row.slaStartedAt ∧ w.issue.slaBreachedAt = row.slaBreachedAt := by
  cases h with
  | merge hrow =>
    refine ⟨_, Table.findOne_self hrow, rfl, ?_⟩
    rw [if_neg (by simp [Write.reopens, MergeService.mergeWrite, IssueStatus.value])]
    exact ⟨rfl, rfl⟩
  | changePriority hrow =>
    refine ⟨_, Table.findOne_self hrow, rfl, ?_⟩
    rw [if_neg (by simp [Write.reopens, IssuesService.priorityWrite])]
    exact ⟨rfl, rfl⟩
  | changeAssignment hrow =>
    refine ⟨_, Table.findOne_self hrow, rfl, ?_⟩
    rw [if_neg (by simp [Write.reopens, IssuesService.assignmentWrite])]
    exact ⟨rfl, rfl⟩
  | @changeStatus _ _ dto row hrow =>
    rw [Write.reopens_statusWrite, IssuesService.statusWrite]
    refine ⟨row, ?_, by simp [Issue.toEntity], ?_⟩
    · rw [IssueEntity.setStatus_id]
      exact Table.findOne_self hrow
    · rw [IssueEntity.setStatus_slaStartedAt, IssueEntity.setStatus_slaBreachedAt]
      by_cases ht : dto.status = .reopened <;> simp [ht, Issue.toEntity]
  | @webhook _ _ _ row target _ _ hlinked =>
    rw [Write.reopens_webhookWrite, JiraInboundService.webhookWrite]
    refine ⟨row, ?_, by simp [Issue.toEntity], ?_⟩
    · rw [IssueEntity.setStatus_id]
      exact JiraInboundService.findByJiraKey_some hlinked
    · rw [IssueEntity.setStatus_slaStartedAt, IssueEntity.setStatus_slaBreachedAt]
      by_cases ht : target = .reopened <;> simp [ht, Issue.toEntity]

end Request.Loads

namespace System

def cycleStart (s : System) (row : Issue) : Time :=
  ((s.committed.filter fun f => f.write.issue.id = row.id && f.write.reopens).getLast?.map
    InFlight.loadedAt).getD row.createdAt

def EscalatesDue (cfg : Config) (s : System) (a : Action) : Prop :=
  ∀ i, breachRows i s.db.auditEvents < breachRows i (s.step cfg a).db.auditEvents ∨
      breachEvents i s.events < breachEvents i (s.step cfg a).events →
    ∃ row, s.db.issues.findOne i = some row ∧ row.status ∈ openIssueStatuses ∧
      s.cycleStart row + cfg.slaWindow row.platform row.priority ≤ s.clock

def OncePerCycle (s : System) : Prop :=
  ∀ i, breachesThisCycle i s.db.auditEvents ≤ 1 ∧
    breachEvents i s.events = breachRows i s.db.auditEvents

/-- An issue that the sweep marks is still open, with the priority and the clock it was selected with. -/
def MarksAsSelected (s : System) (a : Action) : Prop :=
  ∀ row ∈ s.escalating a, ∀ stored ∈ s.db.issues.findOne row.id,
    stored.status ∈ openIssueStatuses ∧ stored.priority = row.priority ∧
      stored.slaStartedAt = row.slaStartedAt

/-- A save that reopens nothing finds the clock and the marker as it loaded them. -/
def SavesAsLoaded (s : System) (a : Action) : Prop :=
  ∀ f ∈ s.saving a, f.write.reopens = false → ∀ loaded ∈ f.snapshot.issues.findOne f.write.issue.id,
    ∀ stored ∈ s.db.issues.findOne f.write.issue.id,
      stored.slaStartedAt = loaded.slaStartedAt ∧ stored.slaBreachedAt = loaded.slaBreachedAt

instance (s : System) (a : Action) : Decidable (s.MarksAsSelected a) := by
  unfold MarksAsSelected; infer_instance

instance (s : System) (a : Action) : Decidable (s.SavesAsLoaded a) := by
  unfold SavesAsLoaded; infer_instance

variable {cfg : Config} {s s' : System} {a : Action}

structure Read (cfg : Config) (s : System) : Prop where
  inFlight : ∀ slot f, s.inFlight slot = some f → ∀ i row, f.snapshot.issues.findOne i = some row →
    ∃ stored, s.db.issues.findOne i = some stored ∧ stored.createdAt = row.createdAt
  sweeps : ∀ slot rows, s.sweeps slot = some rows → ∀ row ∈ rows, slaDue cfg row ≤ s.clock ∧
    ∃ stored, s.db.issues.findOne row.id = some stored ∧ stored.platform = row.platform
  committed : ∀ f ∈ s.committed, ∃ stored, s.db.issues.findOne f.write.issue.id = some stored

theorem Read.createdAt (h : s.Read cfg) {slot : ℕ} {f : InFlight} (hf : s.inFlight slot = some f)
    {stored : Issue} (hstored : s.db.issues.findOne f.write.issue.id = some stored) :
    f.write.issue.createdAt = stored.createdAt := by
  obtain ⟨row, hrow, hcreated, _⟩ := f.loads.sla
  obtain ⟨stored', hstored', hsame⟩ := h.inFlight slot f hf _ row hrow
  rw [hstored] at hstored'
  cases hstored'
  rw [hcreated, hsame]

theorem createdAt_step (h : s.Read cfg) (heffect : Effect s a s') {i : Uuid} {row : Issue}
    (hrow : s.db.issues.findOne i = some row) :
    ∃ row', s'.db.issues.findOne i = some row' ∧ row'.createdAt = row.createdAt := by
  cases heffect with
  | idle _ _ hissues => exact ⟨row, hissues ▸ hrow, rfl⟩
  | intake _ _ hissues =>
    refine ⟨row, ?_, rfl⟩
    rw [Table.findOne_insert hissues, if_neg, hrow]
    rintro rfl
    rw [Table.insert_fresh hissues] at hrow
    cases hrow
  | commit _ _ hf hbody =>
    rw [Write.findOne_of_body hbody, hrow]
    split
    · rename_i hi
      refine ⟨_, rfl, ?_⟩
      rw [IssueEntity.written_columns, h.createdAt hf (hi ▸ hrow)]
    · exact ⟨row, rfl, rfl⟩
  | mark _ _ _ _ _ hissues =>
    rw [hissues, Table.findOne_update, hrow]
    split
    · exact ⟨_, rfl, rfl⟩
    · exact ⟨row, rfl, rfl⟩

theorem Read.step (h : s.Read cfg) (a : Action) : (s.step cfg a).Read cfg := by
  have heffect := s.step_effect cfg a
  constructor
  · intro slot f hf i row hrow
    rcases inFlight_step cfg hf with hold | ⟨hsnapshot, _⟩
    · obtain ⟨stored, hstored, hcreated⟩ := h.inFlight slot f hold i row hrow
      obtain ⟨stored', hstored', hsame⟩ := createdAt_step h heffect hstored
      exact ⟨stored', hstored', hsame.trans hcreated⟩
    · exact createdAt_step h heffect (hsnapshot ▸ hrow)
  · intro slot rows hrows row hrow
    have hclock := s.clock_le_step cfg a
    rcases sweeps_step cfg hrows hrow with ⟨before, hbefore, hmem⟩ | hselect
    · obtain ⟨hdue, stored, hstored, hplatform⟩ := h.sweeps slot before hbefore row hmem
      obtain ⟨stored', hstored', hsame⟩ := row_persists heffect hstored
      exact ⟨hdue.trans hclock, stored', hstored', hsame.trans hplatform⟩
    · have hrow : s.db.issues.findOne row.id = some row :=
        Table.findOne_of_mem (List.mem_of_mem_filter hselect)
      obtain ⟨_, hdue⟩ := SlaEscalationService.mem_select hselect
      obtain ⟨stored, hstored, hplatform⟩ := row_persists heffect hrow
      exact ⟨hdue.trans hclock, stored, hstored, hplatform⟩
  · have hkept : ∀ f ∈ s.committed, ∃ stored,
        (s.step cfg a).db.issues.findOne f.write.issue.id = some stored := by
      intro f hf
      obtain ⟨stored, hstored⟩ := h.committed f hf
      obtain ⟨stored', hstored', _⟩ := row_persists heffect hstored
      exact ⟨stored', hstored'⟩
    cases heffect with
    | idle _ _ _ _ hcommitted => rwa [hcommitted]
    | intake _ _ _ _ _ _ hcommitted => rwa [hcommitted]
    | mark _ _ _ _ _ _ _ _ hcommitted => rwa [hcommitted]
    | @commit slot fails f _ _ hf hbody hcommitted =>
      rw [hcommitted]
      intro g hg
      rcases List.mem_append.mp hg with hg | hg
      · exact hkept g hg
      · obtain rfl := List.mem_singleton.mp hg
        obtain ⟨row, hrow, _⟩ := g.loads.sla
        obtain ⟨stored, hstored, _⟩ := h.inFlight slot g hf _ row hrow
        exact ⟨_, by rw [Write.findOne_of_body hbody, if_pos rfl, hstored]; rfl⟩

/-- The stored clock is the cycle's, and a cycle without the marker has no SLA_BREACHED row. -/
structure Cycled (s : System) : Prop where
  baseline : ∀ i row, s.db.issues.findOne i = some row → row.slaStartedAt = s.cycleStart row
  unmarked : ∀ i, (∀ row, s.db.issues.findOne i = some row → row.slaBreachedAt = none) →
    breachesThisCycle i s.db.auditEvents = 0

theorem cycleStart_congr {row row' : Issue} (hcommitted : s'.committed = s.committed)
    (hid : row'.id = row.id) (hcreated : row'.createdAt = row.createdAt) :
    s'.cycleStart row' = s.cycleStart row := by
  rw [cycleStart, cycleStart, hcommitted, hid, hcreated]

theorem cycleStart_commit {f : InFlight} (hcommitted : s'.committed = s.committed ++ [f]) (row : Issue) :
    s'.cycleStart row =
      if f.write.issue.id = row.id ∧ f.write.reopens then f.loadedAt else s.cycleStart row := by
  rw [cycleStart, cycleStart, hcommitted, List.filter_append]
  by_cases h : f.write.issue.id = row.id ∧ f.write.reopens
  · simp [h]
  · rw [if_neg h, List.filter_cons_of_neg (by simpa using h), List.filter_nil, List.append_nil]

theorem baseline_step (hread : s.Read cfg) (h : s.Cycled) (hsaves : s.SavesAsLoaded a)
    (heffect : Effect s a s') {i : Uuid} {row : Issue} (hrow : s'.db.issues.findOne i = some row) :
    row.slaStartedAt = s'.cycleStart row := by
  cases heffect with
  | idle _ _ hissues _ hcommitted =>
    rw [cycleStart_congr hcommitted rfl rfl, h.baseline i row (hissues ▸ hrow)]
  | intake _ _ hissues _ _ _ hcommitted =>
    rw [Table.findOne_insert hissues] at hrow
    split at hrow
    · have hfresh := Table.insert_fresh hissues
      have hnone : (s'.committed.filter fun f => f.write.issue.id = row.id && f.write.reopens) = [] := by
        rw [List.filter_eq_nil_iff, hcommitted]
        intro f hf hc
        obtain ⟨stored, hstored⟩ := hread.committed f hf
        simp only [Bool.and_eq_true, decide_eq_true_eq] at hc
        cases hrow
        rw [hc.1, hfresh] at hstored
        cases hstored
      rw [cycleStart, hnone]
      cases hrow
      rfl
    · rw [cycleStart_congr hcommitted rfl rfl, h.baseline i row hrow]
  | @commit slot fails f hsaving _ hf hbody hcommitted =>
    rw [cycleStart_commit hcommitted]
    rw [Write.findOne_of_body hbody] at hrow
    split at hrow
    · rename_i hi
      obtain ⟨stored, hstored, rfl⟩ := Option.map_eq_some_iff.mp hrow
      subst hi
      obtain ⟨loaded, hloaded, _, hsla⟩ := f.loads.sla
      have hid : stored.id = f.write.issue.id := Table.findOne_key hstored
      rw [IssueEntity.written_columns, IssueEntity.written_id]
      cases hreopens : f.write.reopens with
      | true =>
        rw [hreopens] at hsla
        rw [if_pos ⟨hid.symm, rfl⟩]
        exact hsla.1
      | false =>
        rw [hreopens] at hsla
        have hsame := (hsaves f hsaving hreopens loaded hloaded stored hstored).1
        have hcycle : s.cycleStart (f.write.issue.written s.clock stored) = s.cycleStart stored := by
          apply cycleStart_congr rfl (by simp)
          rw [IssueEntity.written_columns, hread.createdAt hf hstored]
        rw [if_neg (by simp), hcycle, ← h.baseline _ _ hstored, hsame]
        exact hsla.1
    · rename_i hi
      have hid : row.id = i := Table.findOne_key hrow
      rw [if_neg (fun hc => hi (hid ▸ hc.1.symm)), h.baseline i row hrow]
  | mark _ _ _ _ _ hissues _ _ hcommitted =>
    rw [hissues, Table.findOne_update] at hrow
    split at hrow
    · obtain ⟨stored, hstored, rfl⟩ := Option.map_eq_some_iff.mp hrow
      have hsame : s'.cycleStart (SlaEscalationService.marked s.clock stored) = s.cycleStart stored :=
        cycleStart_congr hcommitted rfl rfl
      rw [hsame, ← h.baseline i stored hstored]
      rfl
    · rw [cycleStart_congr hcommitted rfl rfl, h.baseline i row hrow]

theorem breachesThisCycle_mark (i j : Uuid) (now : Time) (audit : List AuditEvent) {n : ℕ} (hn : n ≤ 1) :
    breachesThisCycle i (audit ++ List.replicate n ((SlaEscalationService.breachAudit j).toEvent now)) =
      breachesThisCycle i audit + if j = i then n else 0 := by
  obtain rfl | rfl : n = 0 ∨ n = 1 := by omega
  · simp
  · rw [List.replicate_one, breachesThisCycle_concat _ _ _ (by
      simp [AuditEvent.reopened, AuditInput.toEvent, SlaEscalationService.breachAudit])]
    simp [AuditEvent.breached, AuditInput.toEvent, SlaEscalationService.breachAudit]

theorem breachRows_mark (i j : Uuid) (now : Time) (audit : List AuditEvent) (n : ℕ) :
    breachRows i (audit ++ List.replicate n ((SlaEscalationService.breachAudit j).toEvent now)) =
      breachRows i audit + if j = i then n else 0 := by
  rw [breachRows, List.countP_append, List.countP_replicate, breachRows]
  simp [AuditEvent.breached, AuditInput.toEvent, SlaEscalationService.breachAudit]

theorem breachEvents_mark (i j platform : Uuid) (events : List IssueEvent) (n : ℕ) :
    breachEvents i (events ++ List.replicate n (.slaBreached j platform)) =
      breachEvents i events + if j = i then n else 0 := by
  rw [breachEvents, List.countP_append, List.countP_replicate, breachEvents]
  simp [IssueEvent.breached]

theorem breaches_step (heffect : Effect s a s') (i : Uuid) :
    (breachRows i s'.db.auditEvents = breachRows i s.db.auditEvents ∧
      breachEvents i s'.events = breachEvents i s.events) ∨
    ∃ row n, s.escalating a = some row ∧ row.id = i ∧
      breachRows i s'.db.auditEvents = breachRows i s.db.auditEvents + n ∧
      breachEvents i s'.events = breachEvents i s.events + n := by
  cases heffect with
  | idle _ _ _ haudit _ hevents => exact .inl ⟨by rw [haudit], by rw [hevents]⟩
  | intake _ _ _ hcreated _ haudit _ hevents =>
    refine .inl ⟨?_, by rw [hevents]⟩
    rw [haudit, breachRows, List.countP_append]
    simp [AuditEvent.breached, hcreated, breachRows]
  | @commit slot fails f _ _ _ hbody _ hevents =>
    rw [(Write.body_spec hbody).2, hevents]
    have hrows : (f.write.audit.map (AuditInput.toEvent s.clock)).countP (AuditEvent.breached i) = 0 :=
      List.countP_eq_zero.mpr fun e he => by simp [f.loads.not_breached _ i e he]
    have hemitted : f.write.events.countP (IssueEvent.breached i) = 0 :=
      List.countP_eq_zero.mpr fun e he => by simp [f.loads.events i e he]
    exact .inl ⟨by rw [breachRows, List.countP_append, hrows]; rfl,
      by rw [breachEvents, List.countP_append, hemitted]; rfl⟩
  | @mark _ row _ _ n _ hescalating _ _ _ _ _ haudit _ hevents =>
    rw [haudit, hevents, breachRows_mark, breachEvents_mark]
    by_cases hi : row.id = i
    · exact .inr ⟨row, n, hescalating, hi, by simp [hi], by simp [hi]⟩
    · exact .inl ⟨by simp [hi], by simp [hi]⟩

theorem escalatesDue_of_marksAsSelected (hread : s.Read cfg) (h : s.Cycled)
    (hmarks : s.MarksAsSelected a) : s.EscalatesDue cfg a := by
  intro i hadded
  rcases breaches_step (s.step_effect cfg a) i with ⟨hrows, hevents⟩ | ⟨row, n, hescalating, rfl, _⟩
  · omega
  · have heffect := s.step_effect cfg a
    cases heffect with
    | idle _ he => simp [he] at hescalating
    | intake _ he => simp [he] at hescalating
    | commit _ he => simp [he] at hescalating
    | @mark slot row' stored rest _ _ he hsweep hstored =>
      rw [he] at hescalating
      cases hescalating
      obtain ⟨hopen, hpriority, hstarted⟩ := hmarks row he stored hstored
      obtain ⟨hdue, stored', hstored', hplatform⟩ := hread.sweeps slot _ hsweep row List.mem_cons_self
      rw [hstored] at hstored'
      cases hstored'
      refine ⟨stored, hstored, hopen, ?_⟩
      rw [← h.baseline _ _ hstored, hstarted, hplatform, hpriority]
      exact hdue

theorem oncePerCycle_step (hread : s.Read cfg) (h : s.Cycled) (honce : s.OncePerCycle)
    (hsaves : s.SavesAsLoaded a) : (s.step cfg a).OncePerCycle ∧ (s.step cfg a).Cycled := by
  have heffect := s.step_effect cfg a
  have hpaired : ∀ i, breachEvents i (s.step cfg a).events =
      breachRows i (s.step cfg a).db.auditEvents := by
    intro i
    have hbefore := (honce i).2
    rcases breaches_step heffect i with ⟨hrows, hevents⟩ | ⟨_, n, _, _, hrows, hevents⟩ <;> omega
  have hcounts : ∀ i, breachesThisCycle i (s.step cfg a).db.auditEvents ≤ 1 ∧
      ((∀ row, (s.step cfg a).db.issues.findOne i = some row → row.slaBreachedAt = none) →
        breachesThisCycle i (s.step cfg a).db.auditEvents = 0) := by
    intro i
    have hle := (honce i).1
    cases heffect with
    | idle _ _ hissues haudit =>
      rw [hissues, haudit]
      exact ⟨hle, h.unmarked i⟩
    | @intake _ _ _ _ _ _ e hissues hcreated hfield haudit =>
      have hnone : ∀ e' ∈ [e], e'.breached i = false := by simp [AuditEvent.breached, hcreated]
      have hkept : breachesThisCycle i (s.db.auditEvents ++ [e]) = breachesThisCycle i s.db.auditEvents := by
        rw [breachesThisCycle_append i _ _ hnone]
        simp [AuditEvent.reopened, hfield]
      rw [haudit, hkept]
      refine ⟨hle, fun hmarker => h.unmarked i fun row hrow => hmarker row ?_⟩
      rw [Table.findOne_insert hissues, if_neg, hrow]
      rintro rfl
      rw [Table.insert_fresh hissues] at hrow
      cases hrow
    | @commit slot fails f hsaving _ hf hbody =>
      rw [(Write.body_spec hbody).2, breachesThisCycle_append i _ _ (f.loads.not_breached _ i),
        f.loads.any_reopened]
      by_cases hi : f.write.issue.id = i
      · subst hi
        obtain ⟨loaded, hloaded, _, hsla⟩ := f.loads.sla
        obtain ⟨stored, hstored, _⟩ := hread.inFlight slot f hf _ loaded hloaded
        cases hreopens : f.write.reopens with
        | true => simp
        | false =>
          rw [hreopens] at hsla
          simp only [decide_true, Bool.and_false, Bool.false_eq_true, if_false]
          refine ⟨hle, fun hmarker => h.unmarked _ fun row hrow => ?_⟩
          have hsame := (hsaves f hsaving hreopens loaded hloaded row hrow).2
          have hsaved := hmarker (f.write.issue.written s.clock row) (by
            rw [Write.findOne_of_body hbody, if_pos rfl, hrow]; rfl)
          rw [IssueEntity.written_columns] at hsaved
          exact (hsame.trans hsla.2.symm).trans hsaved
      · simp only [hi, decide_false, Bool.false_and, Bool.false_eq_true, if_false]
        refine ⟨hle, fun hmarker => h.unmarked i fun row hrow => hmarker row ?_⟩
        rw [Write.findOne_of_body hbody, if_neg (fun he => hi he.symm), hrow]
    | @mark slot row stored rest n _ _ _ hstored hnull hissues hn haudit =>
      rw [haudit, breachesThisCycle_mark _ _ _ _ hn]
      by_cases hi : row.id = i
      · subst hi
        have hzero : breachesThisCycle row.id s.db.auditEvents = 0 := by
          apply h.unmarked row.id
          intro row' hrow'
          rw [hstored] at hrow'
          cases hrow'
          exact hnull
        rw [hzero, if_pos rfl]
        refine ⟨by omega, fun hmarker => ?_⟩
        have hmarked := hmarker (SlaEscalationService.marked s.clock stored) (by
          rw [hissues, Table.findOne_update_self, hstored]; rfl)
        cases hmarked
      · rw [if_neg hi]
        refine ⟨hle, fun hmarker => h.unmarked i fun row' hrow' => hmarker row' ?_⟩
        rw [hissues, Table.findOne_update_ne _ _ _ (fun he => hi he.symm), hrow']
  exact ⟨fun i => ⟨(hcounts i).1, hpaired i⟩,
    fun i row hrow => baseline_step hread h hsaves heffect hrow, fun i => (hcounts i).2⟩

theorem Cycled.start {db : Db} (clock : Time)
    (hissues : ∀ i row, db.issues.findOne i = some row → row.slaStartedAt = row.createdAt)
    (haudit : ∀ e ∈ db.auditEvents, e.action ≠ "SLA_BREACHED") :
    (start db clock).Cycled ∧ (start db clock).OncePerCycle := by
  have hnone : ∀ i, ∀ e ∈ db.auditEvents, e.breached i = false := fun i e he => by
    simp [AuditEvent.breached, haudit e he]
  have hcycle : ∀ i, breachesThisCycle i db.auditEvents = 0 := fun i => by
    have h := breachesThisCycle_append i [] db.auditEvents (hnone i)
    rw [List.nil_append] at h
    rw [h]
    split <;> rfl
  refine ⟨⟨hissues, fun i _ => hcycle i⟩, fun i => ⟨?_, ?_⟩⟩
  · change breachesThisCycle i db.auditEvents ≤ 1
    rw [hcycle]
    exact Nat.zero_le 1
  · exact (List.countP_eq_zero.mpr fun e he => by simp [hnone i e he]).symm

/-- In every run in which the sweeps mark issues as they selected them, and saves that reopen nothing
find the clock and the marker as they loaded them, each escalation is due and no cycle sees two. -/
theorem escalations_due_once (cfg : Config) (db : Db) (clock : Time) (as : List Action)
    (hissues : ∀ i row, db.issues.findOne i = some row → row.slaStartedAt = row.createdAt)
    (haudit : ∀ e ∈ db.auditEvents, e.action ≠ "SLA_BREACHED")
    (hmarks : EveryStep (step cfg) MarksAsSelected (start db clock) as)
    (hsaves : EveryStep (step cfg) SavesAsLoaded (start db clock) as) :
    EveryStep (step cfg) (EscalatesDue cfg) (start db clock) as ∧
      Always (step cfg) OncePerCycle (start db clock) as := by
  obtain ⟨hcycled, honce⟩ := Cycled.start clock hissues haudit
  have hread : (start db clock).Read cfg :=
    { inFlight := fun _ _ hf => by cases hf
      sweeps := fun _ _ hs => by cases hs
      committed := fun _ hf => by cases hf }
  have hinv : Always (step cfg) (fun s => s.Read cfg ∧ s.Cycled ∧ s.OncePerCycle) (start db clock) as := by
    refine always_of_everyStep (fun s a hs hguard => ?_) ⟨hread, hcycled, honce⟩ hsaves
    obtain ⟨honce', hcycled'⟩ := oncePerCycle_step hs.1 hs.2.1 hs.2.2 hguard
    exact ⟨hs.1.step a, hcycled', honce'⟩
  refine ⟨everyStep_iff_initial.mpr fun pre a hpre => ?_, hinv.mono fun _ hs => hs.2.2⟩
  have hs := always_iff_initial.mp hinv pre ((List.prefix_append pre [a]).trans hpre)
  exact escalatesDue_of_marksAsSelected hs.1 hs.2.1 (everyStep_iff_initial.mp hmarks pre a hpre)

def twoCycles : List Action :=
  [Sample.intake "A", .tick 10, .sweepSelect 0, .sweepSelect 1, .sweepMark 0 fun _ => false,
      .sweepMark 1 fun _ => false]
    ++ Sample.request (.changeStatus Sample.admin "A" ⟨.closed, 2⟩)
    ++ Sample.request (.changeStatus Sample.admin "A" ⟨.reopened, 3⟩)
    ++ [.tick 10, .sweepSelect 0, .sweepMark 0 fun _ => false]

theorem escalations_due_once_twoCycles :
    EveryStep (step Sample.config) (EscalatesDue Sample.config) (start .empty 0) twoCycles ∧
      Always (step Sample.config) OncePerCycle (start .empty 0) twoCycles :=
  escalations_due_once Sample.config .empty 0 twoCycles (fun _ _ h => by cases h) (fun _ h => by cases h)
    (by decide) (by decide)

def closedBeforeMark : List Action :=
  [Sample.intake "A", .tick 10, .sweepSelect 0]
    ++ Sample.request (.changeStatus Sample.admin "A" ⟨.closed, 1⟩)

theorem sweep_escalates_a_closed_issue :
    ¬ ∀ (cfg : Config) (db : Db) (clock : Time) (as : List Action),
      (∀ i row, db.issues.findOne i = some row → row.slaStartedAt = row.createdAt) →
        (∀ e ∈ db.auditEvents, e.action ≠ "SLA_BREACHED") →
          EveryStep (step cfg) (EscalatesDue cfg) (start db clock) as ∧
            Always (step cfg) OncePerCycle (start db clock) as := by
  intro h
  have hrun := (h Sample.config .empty 0 (closedBeforeMark ++ [.sweepMark 0 fun _ => false])
    (fun _ _ h => by cases h) (fun _ h => by cases h)).1
  have hstep := everyStep_iff_initial.mp hrun closedBeforeMark _ List.prefix_rfl
  obtain ⟨row, hrow, hopen, _⟩ := hstep "A" (.inl (by decide))
  have hclosed : ((exec (step Sample.config) (start .empty 0) closedBeforeMark).db.issues.findOne "A").map
      (fun r => r.status) = some .closed := by decide
  rw [hrow] at hclosed
  have hstatus : row.status = .closed := Option.some.inj hclosed
  rw [hstatus] at hopen
  revert hopen
  decide

end System

end Cimp
