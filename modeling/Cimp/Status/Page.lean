import Cimp.Lib.Window
import Cimp.Status.Incidents

namespace Cimp

open Window

namespace StatusService

structure ComponentView where
  id : Uuid
  name : String
  description : Option String
  status : ComponentStatus
deriving DecidableEq, Repr

structure NamedComponent where
  id : Uuid
  name : String
deriving DecidableEq, Repr

structure UpdateView where
  id : Uuid
  status : IncidentStatus
  body : String
  createdAt : Time
deriving DecidableEq, Repr

structure IncidentView where
  id : Uuid
  title : String
  status : IncidentStatus
  impact : IncidentImpact
  startedAt : Time
  resolvedAt : Option Time
  components : List NamedComponent
  updates : List UpdateView
deriving DecidableEq, Repr

structure PublicStatus where
  key : String
  name : String
  overall : ComponentStatus
  components : List ComponentView
  activeIncidents : List IncidentView
  recentIncidents : List IncidentView
  updatedAt : Time
deriving DecidableEq, Repr

def publicHistoryLimit : ℕ := 20

def severityOrder : List ComponentStatus :=
  [.operational, .maintenance, .degraded, .partialOutage, .majorOutage]

def severity (status : ComponentStatus) : ℕ := severityOrder.idxOf status

def worse (worst : ComponentStatus) (c : StatusComponent) : ComponentStatus :=
  if severity worst < severity c.status then c.status else worst

def overallStatus (components : List StatusComponent) (hasActiveIncident : Bool) : ComponentStatus :=
  let worst := components.foldl worse .operational
  if worst = .operational && hasActiveIncident then .degraded else worst

def incidentView (db : StatusDb) (i : StatusIncident) : IncidentView where
  id := i.id
  title := i.title
  status := i.status
  impact := i.impact
  startedAt := i.startedAt
  resolvedAt := i.resolvedAt
  components := (i.components.filterMap db.components.findOne).map fun c => ⟨c.id, c.name⟩
  updates := ((timeline db i.id).insertionSort fun a b => b.createdAt ≤ a.createdAt).map fun u =>
    ⟨u.id, u.status, u.body, u.createdAt⟩

def componentsOf (db : StatusDb) (platformId : Uuid) : List StatusComponent :=
  db.components.rows.filter fun c => c.platform = platformId

def incidentsOf (db : StatusDb) (platformId : Uuid) : List StatusIncident :=
  db.incidents.rows.filter fun i => i.platform = platformId

/-- `order: { position: 'ASC', name: 'ASC' }`, with names left in any order. -/
def byPosition (a b : StatusComponent) : Prop := a.position ≤ b.position

def newestFirst (a b : StatusIncident) : Prop := b.startedAt ≤ a.startedAt

instance : DecidableRel newestFirst := fun a b => inferInstanceAs (Decidable (b.startedAt ≤ a.startedAt))

instance : Std.Total newestFirst where
  total a b := Nat.le_total b.startedAt a.startedAt

instance : IsTrans StatusIncident newestFirst where
  trans _ _ _ hab hbc := Nat.le_trans hbc hab

instance : DecidableRel byPosition := fun a b => inferInstanceAs (Decidable (a.position ≤ b.position))

instance : Std.Total byPosition where
  total a b := Nat.le_total a.position b.position

instance : IsTrans StatusComponent byPosition where
  trans _ _ _ hab hbc := Nat.le_trans hab hbc

/-- The order the database gives the rows it finds. -/
structure Fetched where
  components : ∀ rows : List StatusComponent, Ordering byPosition rows
  incidents : ∀ rows : List StatusIncident, Ordering newestFirst rows

def findPlatform (db : StatusDb) (platformKey : String) : Option Platform :=
  db.platforms.rows.find? fun p => p.key = platformKey

def publicPage (db : StatusDb) (fetched : Fetched) (now : Time) (platform : Platform) : PublicStatus :=
  let components := (fetched.components (componentsOf db platform.id)).list
  let incidents := (fetched.incidents (incidentsOf db platform.id)).window publicHistoryLimit
  let active := incidents.filter fun i => i.status ≠ .resolved
  { key := platform.key
    name := platform.name
    overall := overallStatus components (0 < active.length)
    components := components.map fun c => ⟨c.id, c.name, c.description, c.status⟩
    activeIncidents := active.map (incidentView db)
    recentIncidents := (incidents.filter fun i => i.status = .resolved).map (incidentView db)
    updatedAt := now }

def publicStatus (db : StatusDb) (fetched : Fetched) (now : Time) (platformKey : String) :
    Except HttpException PublicStatus :=
  match findPlatform db platformKey with
  | none => .error (.notFound "Unknown platform.")
  | some platform =>
    if platform.status ≠ .active then .error (.notFound "Unknown platform.")
    else .ok (publicPage db fetched now platform)

variable {db : StatusDb} {platform : Platform} {components : List StatusComponent} {worst : ComponentStatus}

@[simp] theorem severity_eq_zero {status : ComponentStatus} : severity status = 0 ↔ status = .operational := by
  cases status <;> decide

theorem severity_le_foldl (components : List StatusComponent) (worst : ComponentStatus) :
    severity worst ≤ severity (components.foldl worse worst) := by
  induction components generalizing worst with
  | nil => exact le_rfl
  | cons c rest ih =>
    apply le_trans _ (ih (worse worst c))
    rw [worse]
    split
    · rename_i hworse
      exact hworse.le
    · exact le_rfl

theorem severity_le_foldl_of_mem {c : StatusComponent} (h : c ∈ components) (worst : ComponentStatus) :
    severity c.status ≤ severity (components.foldl worse worst) := by
  induction components generalizing worst with
  | nil => cases h
  | cons d rest ih =>
    rcases List.mem_cons.mp h with rfl | hrest
    · apply le_trans _ (severity_le_foldl rest (worse worst c))
      rw [worse]
      split
      · exact le_rfl
      · rename_i hnot
        exact Nat.le_of_not_lt hnot
    · exact ih hrest (worse worst d)

theorem foldl_worse_mem (components : List StatusComponent) (worst : ComponentStatus) :
    components.foldl worse worst = worst ∨ ∃ c ∈ components, c.status = components.foldl worse worst := by
  induction components generalizing worst with
  | nil => exact Or.inl rfl
  | cons c rest ih =>
    rcases ih (worse worst c) with hsame | ⟨d, hd, hfound⟩
    · by_cases hworse : severity worst < severity c.status
      · have hc : worse worst c = c.status := if_pos hworse
        exact Or.inr ⟨c, List.mem_cons_self, hc.symm.trans hsame.symm⟩
      · have hc : worse worst c = worst := if_neg hworse
        exact Or.inl (hsame.trans hc)
    · exact Or.inr ⟨d, List.mem_cons_of_mem _ hd, hfound⟩

theorem foldl_worse_eq_operational :
    components.foldl worse .operational = .operational ↔ ∀ c ∈ components, c.status = .operational := by
  constructor
  · intro h c hc
    have hle := severity_le_foldl_of_mem hc .operational
    rw [h] at hle
    exact severity_eq_zero.mp (Nat.le_zero.mp hle)
  · intro h
    rcases foldl_worse_mem components .operational with hsame | ⟨c, hc, hfound⟩
    · exact hsame
    · exact hfound.symm.trans (h c hc)

theorem severity_le_overallStatus {c : StatusComponent} (h : c ∈ components) (hasActiveIncident : Bool) :
    severity c.status ≤ severity (overallStatus components hasActiveIncident) := by
  have hle := severity_le_foldl_of_mem h .operational
  rw [overallStatus]
  split
  · rename_i hgreen
    simp only [Bool.and_eq_true, decide_eq_true_eq] at hgreen
    rw [hgreen.1] at hle
    exact hle.trans (Nat.zero_le _)
  · exact hle

theorem overallStatus_eq_operational {hasActiveIncident : Bool} :
    overallStatus components hasActiveIncident = .operational ↔
      (∀ c ∈ components, c.status = .operational) ∧ hasActiveIncident = false := by
  rw [← foldl_worse_eq_operational, overallStatus]
  cases hasActiveIncident with
  | false => simp
  | true =>
    by_cases hgreen : components.foldl worse .operational = .operational
    · simp [hgreen]
    · simp [hgreen]

theorem mem_incidentsOf {i : StatusIncident} {platformId : Uuid} :
    i ∈ incidentsOf db platformId ↔ i ∈ db.incidents.rows ∧ i.platform = platformId := by
  simp [incidentsOf]

theorem nodup_incidentsOf (db : StatusDb) (platformId : Uuid) : (incidentsOf db platformId).Nodup :=
  (List.Nodup.of_map _ db.incidents.nodup).filter _

/-- What the page of a platform must not hide. -/
structure Honest (db : StatusDb) (platform : Platform) (page : PublicStatus) : Prop where
  listed : ∀ i ∈ incidentsOf db platform.id, i.status ≠ .resolved → incidentView db i ∈ page.activeIncidents
  alarmed : (∃ i ∈ incidentsOf db platform.id, i.status ≠ .resolved) → page.overall ≠ .operational
  worst : ∀ c ∈ componentsOf db platform.id, severity c.status ≤ severity page.overall
  green : page.overall = .operational ↔
    (∀ c ∈ componentsOf db platform.id, c.status = .operational) ∧
      ∀ i ∈ incidentsOf db platform.id, i.status = .resolved

theorem publicStatus_active {platformKey : String} (hplatform : findPlatform db platformKey = some platform)
    (hactive : platform.status = .active) (fetched : Fetched) (now : Time) :
    publicStatus db fetched now platformKey = .ok (publicPage db fetched now platform) := by
  rw [publicStatus, hplatform]
  simp [hactive]

def latest (db : StatusDb) (fetched : Fetched) (platform : Platform) : List StatusIncident :=
  (fetched.incidents (incidentsOf db platform.id)).window publicHistoryLimit

theorem mem_activeIncidents {fetched : Fetched} {now : Time} {i : StatusIncident} :
    incidentView db i ∈ (publicPage db fetched now platform).activeIncidents ↔
      ∃ j ∈ latest db fetched platform, j.status ≠ .resolved ∧ incidentView db j = incidentView db i := by
  simp [publicPage, latest, and_assoc]

theorem overall_eq_operational {fetched : Fetched} {now : Time} :
    (publicPage db fetched now platform).overall = .operational ↔
      (∀ c ∈ componentsOf db platform.id, c.status = .operational) ∧
        ∀ i ∈ latest db fetched platform, i.status = .resolved := by
  have hcomponents (c : StatusComponent) := (fetched.components (componentsOf db platform.id)).mem_list (a := c)
  simp only [publicPage, overallStatus_eq_operational, hcomponents]
  apply and_congr Iff.rfl
  simp [latest, List.length_pos_iff]

theorem publicPage_honest {fetched : Fetched} (now : Time)
    (h : ∀ i ∈ incidentsOf db platform.id, i.status ≠ .resolved → i ∈ latest db fetched platform) :
    Honest db platform (publicPage db fetched now platform) where
  listed := by
    intro i hi hunresolved
    exact mem_activeIncidents.mpr ⟨i, h i hi hunresolved, hunresolved, rfl⟩
  alarmed := by
    rintro ⟨i, hi, hunresolved⟩ hgreen
    exact hunresolved ((overall_eq_operational.mp hgreen).2 i (h i hi hunresolved))
  worst := by
    intro c hc
    exact severity_le_overallStatus ((fetched.components _).mem_list.mpr hc) _
  green := by
    rw [overall_eq_operational]
    apply and_congr Iff.rfl
    constructor
    · intro hwindow i hi
      by_contra hunresolved
      exact hunresolved (hwindow i (h i hi hunresolved))
    · intro hall i hi
      exact hall i ((fetched.incidents _).mem_rows hi)

theorem Honest.shown {fetched : Fetched} {now : Time} (h : Honest db platform (publicPage db fetched now platform))
    {i : StatusIncident} (hi : i ∈ incidentsOf db platform.id) (hunresolved : i.status ≠ .resolved) :
    i ∈ latest db fetched platform := by
  obtain ⟨j, hj, _, hview⟩ := mem_activeIncidents.mp (h.listed i hi hunresolved)
  have hrow := (mem_incidentsOf.mp ((fetched.incidents _).mem_rows hj)).1
  have hid : j.id = i.id := congrArg IncidentView.id hview
  have hsame : j = i := List.inj_on_of_nodup_map db.incidents.nodup hrow (mem_incidentsOf.mp hi).1 hid
  exact hsame ▸ hj

/-- Every page is honest, however ties are broken, exactly when each unresolved incident has at most twenty
incidents of its platform, itself among them, that started no earlier. -/
theorem publicStatus_honest_iff {platformKey : String} (hplatform : findPlatform db platformKey = some platform)
    (hactive : platform.status = .active) (now : Time) :
    (∀ fetched, ∃ page, publicStatus db fetched now platformKey = .ok page ∧ Honest db platform page) ↔
      ∀ i ∈ incidentsOf db platform.id, i.status ≠ .resolved →
        rank newestFirst (incidentsOf db platform.id) i ≤ publicHistoryLimit := by
  constructor
  · intro h i hi hunresolved
    apply (mem_window_iff (nodup_incidentsOf db platform.id) hi).mp
    intro q
    -- a database that returns this platform's incidents in the order `q`, and any others sorted
    obtain ⟨page, hpage, hhonest⟩ := h ⟨Ordering.sort byPosition, fun rows =>
      if hrows : rows = incidentsOf db platform.id then hrows ▸ q else .sort newestFirst rows⟩
    rw [publicStatus_active hplatform hactive] at hpage
    cases hpage
    have hshown := hhonest.shown hi hunresolved
    simpa [latest] using hshown
  · intro h fetched
    refine ⟨_, publicStatus_active hplatform hactive fetched now, publicPage_honest now ?_⟩
    intro i hi hunresolved
    exact (fetched.incidents _).mem_window_of_rank hi (h i hi hunresolved)

namespace Sample

def portal : Platform := ⟨"portal", "portal-a", "Portal A", .active⟩

def ongoing : StatusIncident :=
  ⟨"outage", "portal", "Logins fail", .investigating, .critical, [], 0, none, some "dev"⟩

def maintenance (id : Uuid) : StatusIncident :=
  ⟨id, "portal", "Planned restart", .resolved, .maintenance, [], 1, some 1, some "dev"⟩

def statusDb (restarts : List Uuid) (h : ((ongoing :: restarts.map maintenance).map StatusIncident.id).Nodup) :
    StatusDb :=
  ⟨⟨[portal], by decide⟩, .empty, ⟨ongoing :: restarts.map maintenance, h⟩, .empty⟩

def weekly : List Uuid :=
  ["a", "b", "c", "d", "e", "f", "g", "h", "i", "j", "k", "l", "m", "n", "o", "p", "q", "r", "s", "t"]

def fetched : Fetched := ⟨Ordering.sort byPosition, Ordering.sort newestFirst⟩

end Sample

theorem ongoing_incident_hidden :
    findPlatform (Sample.statusDb Sample.weekly (by decide)) "portal-a" = some Sample.portal ∧
      Sample.portal.status = .active ∧
      ∃ page, publicStatus (Sample.statusDb Sample.weekly (by decide)) Sample.fetched 2 "portal-a" = .ok page ∧
        ¬ Honest (Sample.statusDb Sample.weekly (by decide)) Sample.portal page := by
  refine ⟨rfl, rfl, _, publicStatus_active rfl rfl Sample.fetched 2, ?_⟩
  intro h
  have hhidden : Sample.ongoing ∉
      latest (Sample.statusDb Sample.weekly (by decide)) Sample.fetched Sample.portal := by decide
  exact hhidden (h.shown (by decide) (by decide))

theorem publicStatus_honest_iff_oneRestart :
    ∃ page, publicStatus (Sample.statusDb ["a"] (by decide)) Sample.fetched 2 "portal-a" = .ok page ∧
      Honest (Sample.statusDb ["a"] (by decide)) Sample.portal page := by
  have hplatform : findPlatform (Sample.statusDb ["a"] (by decide)) "portal-a" = some Sample.portal := rfl
  exact (publicStatus_honest_iff hplatform rfl 2).mpr (by decide) Sample.fetched

end StatusService

end Cimp
