import Cimp.Issues.Request
import Cimp.Issues.SlaEscalation
import Cimp.Lib.Execution
import Cimp.Reporter.Intake
import Mathlib.Logic.Function.Basic

namespace Cimp

structure InFlight where
  request : Request
  loadedAt : Time
  snapshot : Db
  write : Write
  loads : Request.Loads loadedAt snapshot request write

/-- The deployment under concurrent requests and sweeps. `committed` is the history of the requests
whose transaction went through. -/
structure System where
  db : Db
  clock : Time
  inFlight : ℕ → Option InFlight
  sweeps : ℕ → Option (List Issue)
  committed : List InFlight
  events : List IssueEvent

inductive Action
  | tick (d : ℕ)
  | intake (read : Bool) (fails : ℕ → Bool) (ctx : HandoffContext) (dto : CreateIssueDto)
      (stored : List StoredFile) (ids : IntakeIds)
  | load (slot : ℕ) (r : Request)
  | commit (slot : ℕ) (fails : ℕ → Bool)
  | sweepSelect (slot : ℕ)
  | sweepMark (slot : ℕ) (fails : ℕ → Bool)

namespace System

open SlaEscalationService

def start (db : Db) (clock : Time) : System := ⟨db, clock, fun _ => none, fun _ => none, [], []⟩

def load (cfg : Config) (s : System) (slot : ℕ) (r : Request) : System :=
  match h : r.load cfg s.clock s.db with
  | .ok (some w) =>
    { s with inFlight :=
        Function.update s.inFlight slot (some ⟨r, s.clock, s.db, w, Request.loads_of_load h⟩) }
  | _ => s

def commit (s : System) (slot : ℕ) (fails : ℕ → Bool) : System :=
  match s.inFlight slot with
  | none => s
  | some f =>
    match f.write.body { now := s.clock, statement := fails } s.db with
    | none => { s with inFlight := Function.update s.inFlight slot none }
    | some db =>
      { s with
        db := db
        inFlight := Function.update s.inFlight slot none
        committed := s.committed ++ [f]
        events := s.events ++ f.write.events }

/-- One row of a sweep: the conditional update, then the audit row and the event. -/
def sweepMark (s : System) (slot : ℕ) (fails : ℕ → Bool) : System :=
  match s.sweeps slot with
  | some (row :: rest) =>
    if fails 0 then { s with sweeps := Function.update s.sweeps slot none }
    else match mark s.clock row.id s.db with
      | none => { s with sweeps := Function.update s.sweeps slot (some rest) }
      | some db =>
        if fails 1 then { s with db := db, sweeps := Function.update s.sweeps slot none }
        else
          { s with
            db := { db with auditEvents := db.auditEvents ++ [(breachAudit row.id).toEvent s.clock] }
            sweeps := Function.update s.sweeps slot (some rest)
            events := s.events ++ [.slaBreached row.id row.platform] }
  | _ => s

def step (cfg : Config) (s : System) : Action → System
  | .tick d => { s with clock := s.clock + d }
  | .intake read fails ctx dto stored ids =>
    { s with db := ReporterService.createIssue { now := s.clock, read, statement := fails } ctx dto stored ids s.db }
  | .load slot r => s.load cfg slot r
  | .commit slot fails => s.commit slot fails
  | .sweepSelect slot => { s with sweeps := Function.update s.sweeps slot (some (select cfg s.clock s.db)) }
  | .sweepMark slot fails => s.sweepMark slot fails

def saving (s : System) : Action → Option InFlight
  | .commit slot fails =>
    (s.inFlight slot).filter fun f => (f.write.body { now := s.clock, statement := fails } s.db).isSome
  | _ => none

def escalating (s : System) : Action → Option Issue
  | .sweepMark slot fails =>
    match s.sweeps slot with
    | some (row :: _) => if fails 0 = false ∧ (mark s.clock row.id s.db).isSome then some row else none
    | _ => none
  | _ => none

inductive Effect (s : System) (a : Action) (s' : System) : Prop
  | idle (saving : s.saving a = none) (escalating : s.escalating a = none)
      (issues : s'.db.issues = s.db.issues) (audit : s'.db.auditEvents = s.db.auditEvents)
      (committed : s'.committed = s.committed) (events : s'.events = s.events)
  | intake (saving : s.saving a = none) (escalating : s.escalating a = none)
      {ctx : HandoffContext} {dto : CreateIssueDto} {reporter : Uuid} {ids : IntakeIds} {e : AuditEvent}
      (issues : s.db.issues.insert (ReporterService.newIssue s.clock ctx dto reporter ids) =
        some s'.db.issues)
      (created : e.action = "ISSUE_CREATED") (field : e.field = none)
      (audit : s'.db.auditEvents = s.db.auditEvents ++ [e])
      (committed : s'.committed = s.committed) (events : s'.events = s.events)
  | commit {slot : ℕ} {fails : ℕ → Bool} {f : InFlight} (saving : s.saving a = some f)
      (escalating : s.escalating a = none) (inFlight : s.inFlight slot = some f)
      (body : f.write.body { now := s.clock, statement := fails } s.db = some s'.db)
      (committed : s'.committed = s.committed ++ [f]) (events : s'.events = s.events ++ f.write.events)
  | mark {slot : ℕ} {row stored : Issue} {rest : List Issue} {n : ℕ} (saving : s.saving a = none)
      (escalating : s.escalating a = some row) (sweep : s.sweeps slot = some (row :: rest))
      (found : s.db.issues.findOne row.id = some stored) (unmarked : stored.slaBreachedAt = none)
      (issues : s'.db.issues = s.db.issues.update row.id (marked s.clock) (marked_id s.clock))
      (once : n ≤ 1)
      (audit : s'.db.auditEvents =
        s.db.auditEvents ++ List.replicate n ((breachAudit row.id).toEvent s.clock))
      (committed : s'.committed = s.committed)
      (events : s'.events = s.events ++ List.replicate n (.slaBreached row.id row.platform))

variable (cfg : Config)

theorem load_cases (s : System) (slot : ℕ) (r : Request) :
    s.load cfg slot r = s ∨ ∃ f : InFlight, f.snapshot = s.db ∧ f.loadedAt = s.clock ∧
      s.load cfg slot r = { s with inFlight := Function.update s.inFlight slot (some f) } := by
  unfold load
  split
  · exact .inr ⟨_, rfl, rfl, rfl⟩
  · exact .inl rfl

theorem commit_effect (s : System) (slot : ℕ) (fails : ℕ → Bool) :
    Effect s (.commit slot fails) (s.commit slot fails) := by
  cases hf : s.inFlight slot with
  | none =>
    have hstep : s.commit slot fails = s := by simp only [commit, hf]
    rw [hstep]
    exact .idle (by simp only [saving, hf, Option.filter_none]) rfl rfl rfl rfl rfl
  | some f =>
    cases hb : f.write.body { now := s.clock, statement := fails } s.db with
    | none =>
      have hstep : s.commit slot fails = { s with inFlight := Function.update s.inFlight slot none } := by
        simp only [commit, hf, hb]
      rw [hstep]
      exact .idle (by simp [saving, hf, hb, Option.filter]) rfl rfl rfl rfl rfl
    | some db =>
      have hstep : s.commit slot fails = { s with
          db := db
          inFlight := Function.update s.inFlight slot none
          committed := s.committed ++ [f]
          events := s.events ++ f.write.events } := by simp only [commit, hf, hb]
      rw [hstep]
      exact .commit (by simp [saving, hf, hb, Option.filter]) rfl hf hb rfl rfl

theorem sweepMark_effect (s : System) (slot : ℕ) (fails : ℕ → Bool) :
    Effect s (.sweepMark slot fails) (s.sweepMark slot fails) := by
  unfold sweepMark
  split
  · rename_i row rest hsweep
    split
    · rename_i hfail
      exact .idle rfl (by simp [escalating, hsweep, hfail]) rfl rfl rfl rfl
    · rename_i hfail
      split
      · rename_i hmark
        exact .idle rfl (by simp [escalating, hsweep, hmark]) rfl rfl rfl rfl
      · rename_i db hmark
        have hescalating : s.escalating (.sweepMark slot fails) = some row := by
          simp [escalating, hsweep, hfail, hmark]
        obtain ⟨stored, hstored, hnull, rfl⟩ := mark_some hmark
        split
        · exact .mark (n := 0) rfl hescalating hsweep hstored hnull rfl (by omega) (by simp) rfl (by simp)
        · exact .mark (n := 1) rfl hescalating hsweep hstored hnull rfl (by omega) (by simp) rfl (by simp)
  · rename_i hsweep
    refine .idle rfl ?_ rfl rfl rfl rfl
    simp only [escalating]

theorem step_effect (s : System) (a : Action) : Effect s a (s.step cfg a) := by
  cases a with
  | tick d => exact .idle rfl rfl rfl rfl rfl rfl
  | intake read fails ctx dto stored ids =>
    rcases ReporterService.createIssue_cases { now := s.clock, read, statement := fails } ctx dto stored ids
      s.db with ⟨hissues, haudit⟩ | ⟨reporter, hinsert, e, _, hfield, hcreated, haudit⟩
    · exact .idle rfl rfl hissues haudit rfl rfl
    · exact .intake rfl rfl hinsert hcreated hfield haudit rfl rfl
  | load slot r =>
    rcases s.load_cases cfg slot r with h | ⟨f, _, _, h⟩
    · exact .idle rfl rfl (by rw [step, h]) (by rw [step, h]) (by rw [step, h]) (by rw [step, h])
    · exact .idle rfl rfl (by rw [step, h]) (by rw [step, h]) (by rw [step, h]) (by rw [step, h])
  | commit slot fails => exact s.commit_effect slot fails
  | sweepSelect slot => exact .idle rfl rfl rfl rfl rfl rfl
  | sweepMark slot fails => exact s.sweepMark_effect slot fails

theorem row_persists {a : Action} {s' : System} (h : Effect s a s') {i : Uuid} {row : Issue}
    (hrow : s.db.issues.findOne i = some row) :
    ∃ stored, s'.db.issues.findOne i = some stored ∧ stored.platform = row.platform := by
  cases h with
  | idle _ _ hissues => exact ⟨row, hissues ▸ hrow, rfl⟩
  | intake _ _ hissues =>
    rw [Table.findOne_insert hissues]
    split
    · rename_i hi
      have hfresh := Table.insert_fresh hissues
      rw [← hi, hrow] at hfresh
      cases hfresh
    · exact ⟨row, hrow, rfl⟩
  | commit _ _ _ hbody =>
    rw [Write.findOne_of_body hbody, hrow]
    split
    · exact ⟨_, rfl, by simp⟩
    · exact ⟨row, rfl, rfl⟩
  | mark _ _ _ _ _ hissues =>
    rw [hissues, Table.findOne_update, hrow]
    split
    · exact ⟨_, rfl, rfl⟩
    · exact ⟨row, rfl, rfl⟩

theorem clock_le_step (s : System) (a : Action) : s.clock ≤ (s.step cfg a).clock := by
  cases a with
  | tick d => exact Nat.le_add_right _ _
  | load slot r =>
    rcases s.load_cases cfg slot r with h | ⟨f, _, _, h⟩ <;> simp only [step, h, le_refl]
  | commit slot fails =>
    simp only [step, commit]
    split
    · exact le_rfl
    · split <;> exact le_rfl
  | sweepMark slot fails =>
    simp only [step, sweepMark]
    repeat' split
    all_goals exact le_rfl
  | _ => exact le_rfl

theorem inFlight_step {s : System} {a : Action} {slot : ℕ} {f : InFlight}
    (h : (s.step cfg a).inFlight slot = some f) :
    s.inFlight slot = some f ∨ (f.snapshot = s.db ∧ f.loadedAt = s.clock) := by
  have hcleared : ∀ k, Function.update s.inFlight k none slot = some f → s.inFlight slot = some f := by
    intro k hk
    rw [Function.update_apply] at hk
    split at hk
    · cases hk
    · exact hk
  cases a with
  | load k r =>
    rcases s.load_cases cfg k r with hl | ⟨g, hsnapshot, hloaded, hl⟩
    · rw [step, hl] at h
      exact .inl h
    · simp only [step, hl, Function.update_apply] at h
      split at h
      · cases h
        exact .inr ⟨hsnapshot, hloaded⟩
      · exact .inl h
  | commit k fails =>
    simp only [step, commit] at h
    split at h
    · exact .inl h
    · split at h
      · exact .inl (hcleared k h)
      · exact .inl (hcleared k h)
  | sweepMark k fails =>
    simp only [step, sweepMark] at h
    repeat' split at h
    all_goals exact .inl h
  | _ => exact .inl h

theorem sweeps_step {s : System} {a : Action} {slot : ℕ} {rows : List Issue} {row : Issue}
    (h : (s.step cfg a).sweeps slot = some rows) (hrow : row ∈ rows) :
    (∃ before, s.sweeps slot = some before ∧ row ∈ before) ∨ row ∈ select cfg s.clock s.db := by
  cases a with
  | load k r =>
    rcases s.load_cases cfg k r with hl | ⟨g, _, _, hl⟩ <;>
    · rw [step, hl] at h
      exact .inl ⟨rows, h, hrow⟩
  | commit k fails =>
    simp only [step, commit] at h
    repeat' split at h
    all_goals exact .inl ⟨rows, h, hrow⟩
  | sweepSelect k =>
    simp only [step, Function.update_apply] at h
    split at h
    · cases h
      exact .inr hrow
    · exact .inl ⟨rows, h, hrow⟩
  | sweepMark k fails =>
    have htail : ∀ first rest, s.sweeps k = some (first :: rest) →
        Function.update s.sweeps k (some rest) slot = some rows →
        ∃ before, s.sweeps slot = some before ∧ row ∈ before := by
      intro first rest hk hu
      rw [Function.update_apply] at hu
      split at hu
      · rename_i hslot
        cases hu
        exact ⟨_, hslot ▸ hk, List.mem_cons_of_mem _ hrow⟩
      · exact ⟨rows, hu, hrow⟩
    have hnone : Function.update s.sweeps k none slot = some rows →
        ∃ before, s.sweeps slot = some before ∧ row ∈ before := by
      intro hu
      rw [Function.update_apply] at hu
      split at hu
      · cases hu
      · exact ⟨rows, hu, hrow⟩
    simp only [step, sweepMark] at h
    split at h
    · rename_i first rest hk
      split at h
      · exact .inl (hnone h)
      · split at h
        · exact .inl (htail first rest hk h)
        · split at h
          · exact .inl (hnone h)
          · exact .inl (htail first rest hk h)
    · exact .inl ⟨rows, h, hrow⟩
  | _ => exact .inl ⟨rows, h, hrow⟩

end System

namespace Sample

def intake (id : Uuid) : Action :=
  .intake false (fun _ => false) context ⟨"It does not load", none⟩ [] ⟨id, "reporter", id⟩

def request (r : Request) : List Action := [.load 0 r, .commit 0 fun _ => false]

end Sample

end Cimp
