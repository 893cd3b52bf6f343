import Mathlib.Data.List.DropRight
import Cimp.Authz.Scope
import Cimp.Issues.Write
import Cimp.Lib.Execution

namespace Cimp

open Execution Transaction

inductive ComponentStatus
  | operational | maintenance | degraded | partialOutage | majorOutage
deriving DecidableEq, Repr

inductive IncidentStatus
  | investigating | identified | monitoring | resolved
deriving DecidableEq, Repr

inductive IncidentImpact
  | minor | major | critical | maintenance
deriving DecidableEq, Repr

structure StatusComponent where
  id : Uuid
  platform : Uuid
  name : String
  description : Option String
  status : ComponentStatus
  position : ℕ
deriving DecidableEq, Repr

structure StatusIncident where
  id : Uuid
  platform : Uuid
  title : String
  status : IncidentStatus
  impact : IncidentImpact
  components : List Uuid
  startedAt : Time
  resolvedAt : Option Time
  createdBy : Option Uuid
deriving DecidableEq, Repr

structure StatusIncidentUpdate where
  id : Uuid
  incident : Uuid
  status : IncidentStatus
  body : String
  createdBy : Option Uuid
  createdAt : Time
deriving DecidableEq, Repr

structure StatusDb where
  platforms : Table Platform.id
  components : Table StatusComponent.id
  incidents : Table StatusIncident.id
  updates : Table StatusIncidentUpdate.id
deriving DecidableEq

structure CreateIncidentDto where
  title : String
  body : String
  status : Option IncidentStatus
  impact : Option IncidentImpact
  componentIds : Option (List Uuid)
deriving DecidableEq, Repr

structure AddIncidentUpdateDto where
  status : IncidentStatus
  body : String
  componentIds : Option (List Uuid)
deriving DecidableEq, Repr

structure IncidentIds where
  incident : Uuid
  update : Uuid
deriving DecidableEq, Repr

namespace StatusService

def assertAccess (staff : AuthenticatedStaff) (platformId : Uuid) : Except HttpException Unit :=
  require (ScopeService.canAccessPlatform staff platformId staffWriteRoles)
    (.forbidden "You do not have access to this platform.")

def resolveComponents (db : StatusDb) (platformId : Uuid) (ids : Option (List Uuid)) :
    Except HttpException (List StatusComponent) :=
  let wanted := (ids.getD []).eraseDups
  if wanted.length = 0 then .ok []
  else
    let rows := db.components.rows.filter fun c => c.id ∈ wanted && c.platform = platformId
    if rows.length ≠ wanted.length then
      .error (.badRequest "One or more components do not belong to this platform.")
    else .ok rows

def ownedIncident (db : StatusDb) (platformId incidentId : Uuid) : Except HttpException StatusIncident :=
  match db.incidents.findOne incidentId with
  | none => .error (.notFound "Incident not found.")
  | some row => if row.platform ≠ platformId then .error (.notFound "Incident not found.") else .ok row

def insertIncident (i : StatusIncident) : Statement StatusDb := fun db =>
  (db.incidents.insert i).map fun incidents => { db with incidents }

def assigned (i row : StatusIncident) : StatusIncident :=
  { row with status := i.status, resolvedAt := i.resolvedAt, components := i.components }

theorem assigned_id (i row : StatusIncident) : (assigned i row).id = row.id := rfl

def saveIncident (i : StatusIncident) : Statement StatusDb := fun db =>
  some { db with incidents := db.incidents.update i.id (assigned i) (assigned_id i) }

def insertUpdate (u : StatusIncidentUpdate) : Statement StatusDb := fun db =>
  (db.updates.insert u).map fun updates => { db with updates }

/-- The clock as the application reads it inside the transaction; `created_at` is the begin of the transaction, as the
database reads it. -/
structure Dates where
  startedAt : Time
  resolvedAt : Time
deriving DecidableEq, Repr

def newIncident (dates : Dates) (staff : AuthenticatedStaff) (platformId : Uuid) (dto : CreateIncidentDto)
    (components : List StatusComponent) (id : Uuid) : StatusIncident :=
  let status := dto.status.getD .investigating
  { id := id
    platform := platformId
    title := trim dto.title
    status := status
    impact := dto.impact.getD .minor
    components := components.map StatusComponent.id
    startedAt := dates.startedAt
    resolvedAt := if status = .resolved then some dates.resolvedAt else none
    createdBy := staff.id }

def newUpdate (now : Time) (staff : AuthenticatedStaff) (ids : IncidentIds) (status : IncidentStatus) (body : String) :
    StatusIncidentUpdate where
  id := ids.update
  incident := ids.incident
  status := status
  body := body
  createdBy := staff.id
  createdAt := now

def createIncident (env : Env) (dates : Dates) (staff : AuthenticatedStaff) (platformId : Uuid)
    (dto : CreateIncidentDto) (ids : IncidentIds) (db : StatusDb) : Except HttpException StatusDb := do
  assertAccess staff platformId
  require (!env.read) .internalServerError
  let components ← resolveComponents db platformId dto.componentIds
  let incident := newIncident dates staff platformId dto components ids.incident
  match body env.statement [insertIncident incident,
      insertUpdate (newUpdate env.now staff ids incident.status dto.body)] db with
  | none => .error .internalServerError
  | some saved => .ok saved

/-- `dto.componentIds ? await this.resolveComponents(...) : null`. -/
def replacedComponents (db : StatusDb) (platformId : Uuid) (ids : Option (List Uuid)) :
    Except HttpException (Option (List StatusComponent)) :=
  match ids with
  | some ids => some <$> resolveComponents db platformId (some ids)
  | none => .ok none

def progressed (date : Time) (dto : AddIncidentUpdateDto) (components : Option (List StatusComponent))
    (incident : StatusIncident) : StatusIncident :=
  { incident with
    status := dto.status
    resolvedAt := if dto.status = .resolved then some (incident.resolvedAt.getD date) else none
    components := match components with
      | some components => components.map StatusComponent.id
      | none => incident.components }

def addIncidentUpdate (env : Env) (date : Time) (staff : AuthenticatedStaff) (platformId incidentId : Uuid)
    (dto : AddIncidentUpdateDto) (id : Uuid) (db : StatusDb) : Except HttpException StatusDb := do
  assertAccess staff platformId
  require (!env.read) .internalServerError
  let incident ← ownedIncident db platformId incidentId
  let components ← replacedComponents db platformId dto.componentIds
  match body env.statement [saveIncident (progressed date dto components incident),
      insertUpdate (newUpdate env.now staff ⟨incident.id, id⟩ dto.status dto.body)] db with
  | none => .error .internalServerError
  | some saved => .ok saved

def timeline (db : StatusDb) (incidentId : Uuid) : List StatusIncidentUpdate :=
  db.updates.rows.filter fun u => u.incident = incidentId

variable {env : Env} {staff : AuthenticatedStaff} {platformId incidentId : Uuid} {db t : StatusDb}

theorem resolveComponents_ok {ids : Option (List Uuid)} {components : List StatusComponent}
    (h : resolveComponents db platformId ids = .ok components) :
    ∀ c ∈ components, c ∈ db.components.rows ∧ c.platform = platformId := by
  unfold resolveComponents at h
  dsimp only at h
  split at h
  · cases h
    intro c hc
    cases hc
  split at h
  · cases h
  · cases h
    intro c hc
    obtain ⟨hmem, hc⟩ := List.mem_filter.mp hc
    simp only [Bool.and_eq_true, decide_eq_true_eq] at hc
    exact ⟨hmem, hc.2⟩

theorem replacedComponents_ok {ids : Option (List Uuid)} {components : Option (List StatusComponent)}
    (h : replacedComponents db platformId ids = .ok components) :
    ∀ cs ∈ components, ∀ c ∈ cs, c ∈ db.components.rows ∧ c.platform = platformId := by
  rintro cs rfl
  cases ids with
  | none => cases h
  | some ids =>
    rw [replacedComponents] at h
    cases hresolved : resolveComponents db platformId (some ids) with
    | error e =>
      rw [hresolved] at h
      cases h
    | ok resolved =>
      rw [hresolved] at h
      cases h
      exact resolveComponents_ok hresolved

theorem ownedIncident_ok {incident : StatusIncident} (h : ownedIncident db platformId incidentId = .ok incident) :
    db.incidents.findOne incidentId = some incident ∧ incident.platform = platformId := by
  unfold ownedIncident at h
  split at h
  · cases h
  rename_i row hrow
  split at h
  · cases h
  · rename_i hplatform
    cases h
    exact ⟨hrow, not_not.mp hplatform⟩

theorem insertUpdate_some {u : StatusIncidentUpdate} (h : insertUpdate u db = some t) :
    ∃ updates, db.updates.insert u = some updates ∧ t = { db with updates } := by
  obtain ⟨updates, hupdates, rfl⟩ := Option.map_eq_some_iff.mp h
  exact ⟨updates, hupdates, rfl⟩

theorem createIncident_ok {dates : Dates} {dto : CreateIncidentDto} {ids : IncidentIds}
    (h : createIncident env dates staff platformId dto ids db = .ok t) :
    ∃ components incidents updates, (∀ c ∈ components, c ∈ db.components.rows ∧ c.platform = platformId) ∧
      db.incidents.insert (newIncident dates staff platformId dto components ids.incident) = some incidents ∧
      db.updates.insert (newUpdate env.now staff ids (dto.status.getD .investigating) dto.body) = some updates ∧
      t = { db with incidents, updates } := by
  obtain ⟨_, _, h⟩ := bind_ok h
  obtain ⟨_, _, h⟩ := bind_ok h
  obtain ⟨components, hcomponents, h⟩ := bind_ok h
  dsimp only at h
  split at h
  · cases h
  rename_i saved hbody
  cases h
  obtain ⟨m, hinsert, hupdate⟩ := body_two hbody
  obtain ⟨incidents, hincidents, rfl⟩ := Option.map_eq_some_iff.mp hinsert
  obtain ⟨updates, hupdates, rfl⟩ := insertUpdate_some hupdate
  exact ⟨components, incidents, updates, resolveComponents_ok hcomponents, hincidents, hupdates, rfl⟩

theorem addIncidentUpdate_ok {date : Time} {dto : AddIncidentUpdateDto} {id : Uuid}
    (h : addIncidentUpdate env date staff platformId incidentId dto id db = .ok t) :
    ∃ incident components updates, db.incidents.findOne incidentId = some incident ∧
      (∀ cs ∈ components, ∀ c ∈ cs, c ∈ db.components.rows ∧ c.platform = incident.platform) ∧
      db.updates.insert (newUpdate env.now staff ⟨incidentId, id⟩ dto.status dto.body) = some updates ∧
      t = { db with
        incidents := db.incidents.update incidentId (assigned (progressed date dto components incident))
          (assigned_id _)
        updates } := by
  obtain ⟨_, _, h⟩ := bind_ok h
  obtain ⟨_, _, h⟩ := bind_ok h
  obtain ⟨incident, howned, h⟩ := bind_ok h
  obtain ⟨hrow, hplatform⟩ := ownedIncident_ok howned
  obtain ⟨components, hcomponents, h⟩ := bind_ok h
  split at h
  · cases h
  rename_i saved hbody
  cases h
  obtain ⟨m, hsave, hupdate⟩ := body_two hbody
  cases hsave
  obtain ⟨updates, hupdates, rfl⟩ := insertUpdate_some hupdate
  have hkey : incident.id = incidentId := Table.findOne_key hrow
  subst hkey
  exact ⟨incident, components, updates, hrow, hplatform ▸ replacedComponents_ok hcomponents, hupdates, rfl⟩

theorem timeline_same {u : StatusIncidentUpdate} {updates : Table StatusIncidentUpdate.id}
    (h : db.updates.insert u = some updates) (ht : t.updates = updates) {i : Uuid} (hi : u.incident = i) :
    timeline t i = timeline db i ++ [u] := by
  rw [timeline, ht, Table.rows_insert h, List.filter_append]
  simp [timeline, hi]

theorem timeline_other {u : StatusIncidentUpdate} {updates : Table StatusIncidentUpdate.id}
    (h : db.updates.insert u = some updates) (ht : t.updates = updates) {i : Uuid} (hi : u.incident ≠ i) :
    timeline t i = timeline db i := by
  rw [timeline, ht, Table.rows_insert h, List.filter_append]
  simp [timeline, hi]

end StatusService

namespace StatusPage

open StatusService

/-- The clock goes on by `elapsed` until the transaction begins, and by `started`, `resolved` and `rest` until the
application has read it, has read it again and has its answer. `read` and `fails` are the database calls that fail. -/
structure Call where
  elapsed : ℕ
  started : ℕ
  resolved : ℕ
  rest : ℕ
  read : Bool
  fails : ℕ → Bool
  staff : AuthenticatedStaff
  platformId : Uuid

inductive Action
  | createIncident (call : Call) (dto : CreateIncidentDto) (ids : IncidentIds)
  | addIncidentUpdate (call : Call) (incidentId : Uuid) (dto : AddIncidentUpdateDto) (id : Uuid)

/-- `dates` has, for every entry written, what the application read for `resolvedAt` in its transaction. -/
structure State where
  db : StatusDb
  clock : Time
  dates : List (Uuid × Time)

namespace Call

def env (call : Call) (clock : Time) : Env where
  now := clock + call.elapsed
  read := call.read
  statement := call.fails

def dates (call : Call) (clock : Time) : Dates where
  startedAt := clock + call.elapsed + call.started
  resolvedAt := clock + call.elapsed + call.started + call.resolved

def ended (call : Call) (clock : Time) : Time := clock + call.elapsed + call.started + call.resolved + call.rest

end Call

def answered (s : State) (call : Call) (id : Uuid) (answer : Except HttpException StatusDb) : State :=
  match answer with
  | .ok saved => ⟨saved, call.ended s.clock, s.dates ++ [(id, (call.dates s.clock).resolvedAt)]⟩
  | .error _ => ⟨s.db, call.ended s.clock, s.dates⟩

def step (s : State) : Action → State
  | .createIncident call dto ids => answered s call ids.update
      (createIncident (call.env s.clock) (call.dates s.clock) call.staff call.platformId dto ids s.db)
  | .addIncidentUpdate call incidentId dto id => answered s call id
      (addIncidentUpdate (call.env s.clock) (call.dates s.clock).resolvedAt call.staff call.platformId incidentId dto id
        s.db)

/-- The stretch of RESOLVED entries that the timeline ends with. -/
def resolvedStretch (entries : List StatusIncidentUpdate) : List StatusIncidentUpdate :=
  entries.rtakeWhile fun u => u.status = .resolved

/-- The incident was resolved in the transaction that wrote the first of these entries. -/
def ResolvedWith (dates : List (Uuid × Time)) (resolvedAt : Option Time) : List StatusIncidentUpdate → Prop
  | [] => resolvedAt = none
  | first :: later => ∃ moment, resolvedAt = some moment ∧ (first.id, moment) ∈ dates ∧ first.createdAt ≤ moment ∧
      ∀ u ∈ later, moment ≤ u.createdAt

structure Follows (s : State) (i : StatusIncident) (entries : List StatusIncidentUpdate) : Prop where
  status : entries.getLast?.map StatusIncidentUpdate.status = some i.status
  resolvedAt : ResolvedWith s.dates i.resolvedAt (resolvedStretch entries)
  started : i.startedAt ≤ s.clock
  after : ∀ moment ∈ i.resolvedAt, i.startedAt ≤ moment ∧ moment ≤ s.clock
  components : ∀ c ∈ i.components, ∃ row, s.db.components.findOne c = some row ∧ row.platform = i.platform

structure Inv (s : State) : Prop where
  follows : ∀ i ∈ s.db.incidents.rows, Follows s i (timeline s.db i.id)
  owned : ∀ u ∈ s.db.updates.rows, (s.db.incidents.findOne u.incident).isSome = true

variable {db : StatusDb} {s t : State} {i : StatusIncident} {entries later : List StatusIncidentUpdate}
  {dates dates' : List (Uuid × Time)} {resolvedAt : Option Time}

/-- What another step leaves as it was. -/
structure Extends (s t : State) : Prop where
  clock : s.clock ≤ t.clock
  dates : s.dates ⊆ t.dates
  components : t.db.components = s.db.components

theorem ResolvedWith.mono (hdates : dates ⊆ dates') {entries : List StatusIncidentUpdate}
    (h : ResolvedWith dates resolvedAt entries) : ResolvedWith dates' resolvedAt entries := by
  cases entries with
  | nil => exact h
  | cons first later =>
    obtain ⟨moment, hmoment, hdate, hfirst, hlater⟩ := h
    exact ⟨moment, hmoment, hdates hdate, hfirst, hlater⟩

theorem ResolvedWith.append (h : ResolvedWith dates resolvedAt entries) (hne : entries ≠ [])
    {u : StatusIncidentUpdate} (hu : ∀ moment ∈ resolvedAt, moment ≤ u.createdAt) :
    ResolvedWith dates resolvedAt (entries ++ [u]) := by
  cases entries with
  | nil => exact absurd rfl hne
  | cons first later =>
    obtain ⟨moment, hmoment, hdate, hfirst, hlater⟩ := h
    refine ⟨moment, hmoment, hdate, hfirst, List.forall_mem_append.mpr ⟨hlater, ?_⟩⟩
    exact List.forall_mem_singleton.mpr (hu moment hmoment)

theorem ResolvedWith.isSome (h : ResolvedWith dates resolvedAt entries) : resolvedAt.isSome = true ↔ entries ≠ [] := by
  cases entries with
  | nil => simp [show resolvedAt = none from h]
  | cons first later =>
    obtain ⟨moment, hmoment, _⟩ := h
    simp [hmoment]

theorem Follows.extends (h : Follows s i entries) (ht : Extends s t) : Follows t i entries where
  status := h.status
  resolvedAt := h.resolvedAt.mono ht.dates
  started := h.started.trans ht.clock
  after := fun moment hmoment => ⟨(h.after moment hmoment).1, (h.after moment hmoment).2.trans ht.clock⟩
  components := ht.components ▸ h.components

theorem Follows.opened {u : StatusIncidentUpdate} (read : Dates) (hstatus : u.status = i.status)
    (hstarted : i.startedAt = read.startedAt)
    (hresolved : i.resolvedAt = if i.status = .resolved then some read.resolvedAt else none)
    (hreadings : u.createdAt ≤ read.startedAt ∧ read.startedAt ≤ read.resolvedAt ∧ read.resolvedAt ≤ t.clock)
    (hdates : (u.id, read.resolvedAt) ∈ t.dates)
    (hcomponents : ∀ c ∈ i.components, ∃ row, t.db.components.findOne c = some row ∧ row.platform = i.platform) :
    Follows t i [u] where
  status := by simp [hstatus]
  resolvedAt := by
    obtain ⟨hbegun, hread, _⟩ := hreadings
    rw [hresolved, resolvedStretch, ← List.nil_append [u], List.rtakeWhile_concat, hstatus]
    by_cases hi : i.status = .resolved
    · simp only [hi, if_true, decide_true, List.rtakeWhile_nil, List.nil_append]
      exact ⟨read.resolvedAt, rfl, hdates, hbegun.trans hread, fun _ hu => absurd hu List.not_mem_nil⟩
    · simp [hi, ResolvedWith]
  started := hstarted ▸ hreadings.2.1.trans hreadings.2.2
  after := by
    intro moment hmoment
    rw [hresolved] at hmoment
    split at hmoment
    · cases hmoment
      exact ⟨hstarted ▸ hreadings.2.1, hreadings.2.2⟩
    · cases hmoment
  components := hcomponents

theorem Follows.progressed {u : StatusIncidentUpdate} {date : Time} {dto : AddIncidentUpdateDto}
    {components : Option (List StatusComponent)} (h : Follows s i entries) (ht : Extends s t)
    (hstatus : u.status = dto.status) (hbegun : s.clock ≤ u.createdAt) (hread : u.createdAt ≤ date)
    (hdate : date ≤ t.clock) (hdates : (u.id, date) ∈ t.dates)
    (hcomponents : ∀ cs ∈ components, ∀ c ∈ cs, c ∈ s.db.components.rows ∧ c.platform = i.platform) :
    Follows t (StatusService.progressed date dto components i) (entries ++ [u]) where
  status := by simp [StatusService.progressed, hstatus]
  resolvedAt := by
    rw [resolvedStretch, List.rtakeWhile_concat, hstatus]
    by_cases hresolved : dto.status = .resolved
    · simp only [StatusService.progressed, hresolved, if_true, decide_true]
      have hstretch := h.resolvedAt
      rw [resolvedStretch] at hstretch
      cases hi : i.resolvedAt with
      | none =>
        have hempty := mt hstretch.isSome.mpr (by simp [hi])
        rw [not_not.mp hempty]
        exact ⟨date, rfl, hdates, hread, fun _ hu => absurd hu List.not_mem_nil⟩
      | some moment =>
        have hne := hstretch.isSome.mp (by simp [hi])
        rw [hi] at hstretch
        refine (hstretch.mono ht.dates).append hne fun m hm => ?_
        cases hm
        exact (h.after moment hi).2.trans hbegun
    · simp [StatusService.progressed, hresolved, ResolvedWith]
  started := h.started.trans ht.clock
  after := by
    intro moment hmoment
    simp only [StatusService.progressed] at hmoment ⊢
    split at hmoment
    · cases hi : i.resolvedAt with
      | none =>
        rw [hi] at hmoment
        cases hmoment
        exact ⟨(h.started.trans hbegun).trans hread, hdate⟩
      | some kept =>
        rw [hi] at hmoment
        cases hmoment
        obtain ⟨hstarted, hpast⟩ := h.after kept hi
        exact ⟨hstarted, hpast.trans ht.clock⟩
    · cases hmoment
  components := by
    cases components with
    | none => exact ht.components ▸ h.components
    | some cs =>
      intro c hc
      obtain ⟨row, hrow, rfl⟩ := List.mem_map.mp hc
      obtain ⟨hmem, hplatform⟩ := hcomponents cs rfl row hrow
      exact ⟨row, ht.components ▸ Table.findOne_of_mem hmem, hplatform⟩

theorem timeline_eq_nil (h : Inv s) {id : Uuid} (hfresh : s.db.incidents.findOne id = none) :
    timeline s.db id = [] := by
  rw [timeline, List.filter_eq_nil_iff]
  intro u hu
  have howned := h.owned u hu
  simp only [decide_eq_true_eq]
  rintro rfl
  rw [hfresh] at howned
  cases howned

section Steps

variable {call : Call} {saved : StatusDb} {id : Uuid}

theorem Call.readings_le (call : Call) (clock : Time) :
    clock ≤ (call.env clock).now ∧ (call.env clock).now ≤ (call.dates clock).startedAt ∧
      (call.dates clock).startedAt ≤ (call.dates clock).resolvedAt ∧
      (call.dates clock).resolvedAt ≤ call.ended clock :=
  ⟨Nat.le_add_right _ _, Nat.le_add_right _ _, Nat.le_add_right _ _, Nat.le_add_right _ _⟩

theorem Call.clock_le (call : Call) (clock : Time) : clock ≤ call.ended clock := by
  obtain ⟨hbegun, hstarted, hresolved, hended⟩ := call.readings_le clock
  exact ((hbegun.trans hstarted).trans hresolved).trans hended

theorem answered_extends (hcomponents : saved.components = s.db.components) :
    Extends s (answered s call id (.ok saved)) where
  clock := call.clock_le s.clock
  dates := List.subset_append_left _ _
  components := hcomponents

theorem Inv.failed (h : Inv s) (call : Call) : Inv ⟨s.db, call.ended s.clock, s.dates⟩ where
  follows := fun i hi => (h.follows i hi).extends ⟨call.clock_le s.clock, List.Subset.refl _, rfl⟩
  owned := h.owned

theorem Inv.createIncident {dto : CreateIncidentDto} {ids : IncidentIds} (h : Inv s)
    (ht : StatusService.createIncident (call.env s.clock) (call.dates s.clock) call.staff call.platformId dto ids s.db =
      .ok saved) :
    Inv (answered s call ids.update (.ok saved)) := by
  obtain ⟨components, incidents, updates, hcomponents, hinsert, hupdates, rfl⟩ := createIncident_ok ht
  have hfresh := Table.insert_fresh hinsert
  constructor
  · intro i hi
    rcases (Table.mem_insert hinsert).mp hi with hold | rfl
    · -- the opening entry belongs to the new incident alone, whose id no row had
      have hne : ids.incident ≠ i.id := by
        rintro hid
        rw [newIncident, hid, Table.findOne_of_mem hold] at hfresh
        cases hfresh
      have hsame : timeline (answered s call ids.update (.ok { s.db with incidents, updates })).db i.id =
          timeline s.db i.id := timeline_other hupdates rfl hne
      rw [hsame]
      exact (h.follows i hold).extends (answered_extends rfl)
    · have hbefore : timeline s.db ids.incident = [] := timeline_eq_nil h hfresh
      have hone : timeline (answered s call ids.update (.ok { s.db with incidents, updates })).db ids.incident =
          timeline s.db ids.incident ++ [_] := timeline_same hupdates rfl rfl
      rw [hbefore, List.nil_append] at hone
      change Follows _ _ (timeline _ ids.incident)
      rw [hone]
      apply Follows.opened (call.dates s.clock)
      case hreadings => exact (call.readings_le s.clock).2
      case hdates => exact List.mem_append_right _ List.mem_cons_self
      case hcomponents =>
        intro c hc
        obtain ⟨row, hrow, rfl⟩ := List.mem_map.mp hc
        exact ⟨row, Table.findOne_of_mem (hcomponents row hrow).1, (hcomponents row hrow).2⟩
      all_goals rfl
  · intro u hu
    change (incidents.findOne u.incident).isSome = true
    rw [Table.findOne_insert hinsert]
    split
    · rfl
    · rename_i hne
      rcases (Table.mem_insert hupdates).mp hu with hold | rfl
      · exact h.owned u hold
      · exact absurd rfl hne

theorem Inv.addIncidentUpdate {incidentId : Uuid} {dto : AddIncidentUpdateDto} (h : Inv s)
    (ht : StatusService.addIncidentUpdate (call.env s.clock) (call.dates s.clock).resolvedAt call.staff call.platformId
      incidentId dto id s.db = .ok saved) :
    Inv (answered s call id (.ok saved)) := by
  obtain ⟨incident, components, updates, hrow, hcomponents, hupdates, rfl⟩ := addIncidentUpdate_ok ht
  have hkey : incident.id = incidentId := Table.findOne_key hrow
  have hfollows := h.follows incident (Table.mem_of_findOne hrow)
  have hextends : Extends s (answered s call id (.ok { s.db with
      incidents := s.db.incidents.update incidentId
        (assigned (progressed (call.dates s.clock).resolvedAt dto components incident)) (assigned_id _)
      updates })) := answered_extends rfl
  constructor
  · intro i hi
    obtain ⟨row, hmem, rfl⟩ := List.mem_map.mp hi
    by_cases hid : row.id = incidentId
    · have hsame : row = incident := by
        have hfound := Table.findOne_of_mem hmem
        rw [hid, hrow] at hfound
        exact (Option.some.inj hfound).symm
      subst hsame
      rw [if_pos hid]
      change Follows _ _ (timeline _ row.id)
      rw [timeline_same (i := row.id) hupdates rfl hid.symm]
      obtain ⟨hbegun, hstarted, hresolved, hended⟩ := call.readings_le s.clock
      exact hfollows.progressed hextends rfl hbegun (hstarted.trans hresolved) hended
        (List.mem_append_right _ List.mem_cons_self) hcomponents
    · rw [if_neg hid, timeline_other hupdates rfl (Ne.symm hid)]
      exact (h.follows row hmem).extends hextends
  · intro u hu
    simp only [answered]
    rw [Table.findOne_update]
    have hold : (s.db.incidents.findOne u.incident).isSome = true := by
      rcases (Table.mem_insert hupdates).mp hu with hold | rfl
      · exact h.owned u hold
      · change (s.db.incidents.findOne incidentId).isSome = true
        rw [hrow]
        rfl
    split
    · rw [Option.isSome_map]
      exact hold
    · exact hold

end Steps

theorem Inv.step (h : Inv s) (a : Action) : Inv (step s a) := by
  cases a with
  | createIncident call dto ids =>
    rw [StatusPage.step]
    cases ht : StatusService.createIncident (call.env s.clock) (call.dates s.clock) call.staff call.platformId dto ids
        s.db with
    | error e => exact h.failed call
    | ok saved => exact h.createIncident ht
  | addIncidentUpdate call incidentId dto id =>
    rw [StatusPage.step]
    cases ht : StatusService.addIncidentUpdate (call.env s.clock) (call.dates s.clock).resolvedAt call.staff
        call.platformId incidentId dto id s.db with
    | error e => exact h.failed call
    | ok saved => exact h.addIncidentUpdate ht

def opened (platforms : Table Platform.id) (components : Table StatusComponent.id) (clock : Time) : State :=
  ⟨⟨platforms, components, .empty, .empty⟩, clock, []⟩

theorem Inv.opened (platforms : Table Platform.id) (components : Table StatusComponent.id) (clock : Time) :
    Inv (opened platforms components clock) where
  follows := fun _ hi => absurd hi List.not_mem_nil
  owned := fun _ hu => absurd hu List.not_mem_nil

/-- An incident row as the entries under it tell it. -/
structure Told (s : State) (i : StatusIncident) : Prop where
  status : (timeline s.db i.id).getLast?.map StatusIncidentUpdate.status = some i.status
  resolved : i.resolvedAt.isSome = true ↔ i.status = .resolved
  since : ∀ moment ∈ i.resolvedAt, i.startedAt ≤ moment ∧
    ∃ first later, resolvedStretch (timeline s.db i.id) = first :: later ∧ (first.id, moment) ∈ s.dates ∧
      first.createdAt ≤ moment ∧ ∀ u ∈ later, moment ≤ u.createdAt
  components : ∀ c ∈ i.components, ∃ row, s.db.components.findOne c = some row ∧ row.platform = i.platform

theorem resolvedStretch_ne_nil {u : StatusIncidentUpdate} (h : entries.getLast? = some u) :
    resolvedStretch entries ≠ [] ↔ u.status = .resolved := by
  obtain ⟨earlier, rfl⟩ := List.getLast?_eq_some_iff.mp h
  rw [resolvedStretch, List.rtakeWhile_concat]
  by_cases hu : u.status = .resolved
  · simp [hu]
  · simp [hu]

theorem Follows.told (h : Follows s i (timeline s.db i.id)) : Told s i where
  status := h.status
  resolved := by
    obtain ⟨u, hlast, hu⟩ := Option.map_eq_some_iff.mp h.status
    rw [h.resolvedAt.isSome, ← hu]
    exact resolvedStretch_ne_nil hlast
  since := by
    intro moment hmoment
    refine ⟨(h.after moment hmoment).1, ?_⟩
    have hwith := h.resolvedAt
    cases hstretch : resolvedStretch (timeline s.db i.id) with
    | nil =>
      rw [hstretch, ResolvedWith, hmoment] at hwith
      cases hwith
    | cons first later =>
      rw [hstretch] at hwith
      obtain ⟨kept, hkept, hdate, hfirst, hlater⟩ := hwith
      cases hmoment.symm.trans hkept
      exact ⟨first, later, rfl, hdate, hfirst, hlater⟩
  components := h.components

/-- Along every run every incident stands as its timeline tells, whichever transactions fail on the way. -/
theorem incidents_told (platforms : Table Platform.id) (components : Table StatusComponent.id) (clock : Time)
    (calls : List Action) :
    Always step (fun s => ∀ i ∈ s.db.incidents.rows, Told s i) (opened platforms components clock) calls := by
  have hrun : Always step Inv (opened platforms components clock) calls :=
    always_of_step (fun _ a hs => hs.step a) (Inv.opened platforms components clock) calls
  exact hrun.mono fun _ hs i hi => (hs.follows i hi).told

namespace Sample

def operator : AuthenticatedStaff := ⟨"operator", "local:operator", "Operator", "operator@cimp", [⟨.developer, none⟩]⟩

/-- A note on an incident that is over, in a transaction that begins one millisecond before the application reads the
clock. -/
def retroPosted : Action :=
  .createIncident ⟨0, 1, 0, 0, false, fun _ => false, operator, "web"⟩ ⟨"Outage", "It is over.", some .resolved, none, none⟩
    ⟨"incident", "update"⟩

end Sample

theorem resolvedAt_not_createdAt :
    ¬ ∀ (platforms : Table Platform.id) (components : Table StatusComponent.id) (clock : Time) (calls : List Action),
      Always step (fun s => ∀ i ∈ s.db.incidents.rows, ∀ moment ∈ i.resolvedAt,
        (resolvedStretch (timeline s.db i.id)).head?.map StatusIncidentUpdate.createdAt = some moment)
        (opened platforms components clock) calls := by
  intro h
  have hfinal := (h .empty .empty 0 [Sample.retroPosted]).final
  revert hfinal
  decide

end StatusPage

end Cimp
