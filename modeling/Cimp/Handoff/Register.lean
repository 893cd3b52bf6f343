import Cimp.Authz.Scope
import Cimp.Handoff.Verify
import Cimp.Issues.Sla
import Cimp.Lib.Execution
import Cimp.Scanning.Scan
import Mathlib.Data.List.Count

namespace Cimp

open Execution Json Utf16

structure PlatformEntity extends HandoffPlatform where
  jiraProjectKey : Option String
  jiraEnabled : Bool
  slaPolicy : Option SlaPolicy
  createdAt : Time

structure PlatformView where
  id : Uuid
  key : String
  name : String
  status : PlatformStatus
  jiraProjectKey : Option String
  jiraEnabled : Bool
  slaPolicy : Option SlaPolicy
  createdAt : Time

structure CreatePlatformDto where
  key : String
  name : String
  status : Option PlatformStatus
  jiraProjectKey : Option String
  jiraEnabled : Option Bool
  handoffSecret : Option String

structure UpdatePlatformDto (α : Type) where
  name : Option String
  status : Option PlatformStatus
  jiraProjectKey : Option (Option String)
  jiraEnabled : Option Bool
  slaPolicy : Option (Option (List (String × α)))

structure PlatformChanges where
  name : Option String := none
  status : Option PlatformStatus := none
  jiraProjectKey : Option (Option String) := none
  jiraEnabled : Option Bool := none
  slaPolicy : Option (Option SlaPolicy) := none
  handoffSecret : Option String := none

structure PlatformAudit extends AuditInput where
  platformId : Uuid

inductive PlatformAnswer
  | platform (view : PlatformView)
  | secret (id : Uuid) (key handoffSecret : String)
  | removed
  | refused (e : HttpException)

inductive PlatformColumn
  | key | name | status | jiraProjectKey | jiraEnabled | slaPolicy | handoffSecret | createdAt

namespace PlatformColumn

abbrev Value : PlatformColumn → Type
  | key | name | handoffSecret => String
  | status => PlatformStatus
  | jiraProjectKey => Option String
  | jiraEnabled => Bool
  | slaPolicy => Option SlaPolicy
  | createdAt => Time

instance (c : PlatformColumn) : DecidableEq c.Value := by
  cases c <;> exact inferInstance

def get : (c : PlatformColumn) → PlatformEntity → c.Value
  | key, p => p.key
  | name, p => p.name
  | status, p => p.status
  | jiraProjectKey, p => p.jiraProjectKey
  | jiraEnabled, p => p.jiraEnabled
  | slaPolicy, p => p.slaPolicy
  | handoffSecret, p => p.handoffSecret
  | createdAt, p => p.createdAt

def given : (c : PlatformColumn) → PlatformChanges → Option c.Value
  | key, _ | createdAt, _ => none
  | name, d => d.name
  | status, d => d.status
  | jiraProjectKey, d => d.jiraProjectKey
  | jiraEnabled, d => d.jiraEnabled
  | slaPolicy, d => d.slaPolicy
  | handoffSecret, d => d.handoffSecret

end PlatformColumn

namespace PlatformEntity

def assign (changes : PlatformChanges) (p : PlatformEntity) : PlatformEntity :=
  { p with
    name := changes.name.getD p.name
    status := changes.status.getD p.status
    jiraProjectKey := changes.jiraProjectKey.getD p.jiraProjectKey
    jiraEnabled := changes.jiraEnabled.getD p.jiraEnabled
    slaPolicy := changes.slaPolicy.getD p.slaPolicy
    handoffSecret := changes.handoffSecret.getD p.handoffSecret }

/-- The row after `UPDATE` of the columns in which the entity differs from what `save` re-read. -/
def savedOver (e read row : PlatformEntity) : PlatformEntity where
  id := row.id
  key := changed e.key read.key row.key
  name := changed e.name read.name row.name
  status := changed e.status read.status row.status
  handoffSecret := changed e.handoffSecret read.handoffSecret row.handoffSecret
  jiraProjectKey := changed e.jiraProjectKey read.jiraProjectKey row.jiraProjectKey
  jiraEnabled := changed e.jiraEnabled read.jiraEnabled row.jiraEnabled
  slaPolicy := changed e.slaPolicy read.slaPolicy row.slaPolicy
  createdAt := changed e.createdAt read.createdAt row.createdAt

def insert (p : PlatformEntity) (platforms : Table fun p : PlatformEntity => p.id) :
    Option (Table fun p : PlatformEntity => p.id) :=
  if platforms.rows.any fun q => q.key = p.key then none else platforms.insert p

@[simp] theorem assign_id (changes : PlatformChanges) (p : PlatformEntity) : (p.assign changes).id = p.id := rfl

@[simp] theorem savedOver_id (e read row : PlatformEntity) : (e.savedOver read row).id = row.id := rfl

theorem get_assign (c : PlatformColumn) (changes : PlatformChanges) (p : PlatformEntity) :
    c.get (p.assign changes) = (c.given changes).getD (c.get p) := by
  cases c <;> rfl

theorem get_savedOver (c : PlatformColumn) (e read row : PlatformEntity) :
    c.get (e.savedOver read row) = changed (c.get e) (c.get read) (c.get row) := by
  cases c <;> rfl

theorem insert_cases {p : PlatformEntity} {platforms platforms' : Table fun p : PlatformEntity => p.id}
    (h : p.insert platforms = some platforms') :
    (∀ q ∈ platforms.rows, q.key ≠ p.key) ∧ platforms.insert p = some platforms' := by
  unfold insert at h
  split at h
  · cases h
  · rename_i hkey
    refine ⟨?_, h⟩
    simpa using hkey

end PlatformEntity

namespace AdminService

def toPlatform (p : PlatformEntity) : PlatformView :=
  ⟨p.id, p.key, p.name, p.status, p.jiraProjectKey, p.jiraEnabled, p.slaPolicy, p.createdAt⟩

def newPlatform (dto : CreatePlatformDto) (newSecret : String) (id : Uuid) (now : Time) : PlatformEntity where
  id := id
  key := dto.key
  name := dto.name
  status := dto.status.getD .active
  jiraProjectKey := dto.jiraProjectKey
  jiraEnabled := dto.jiraEnabled.getD false
  slaPolicy := none
  handoffSecret := dto.handoffSecret.getD newSecret
  createdAt := now

def platformChanges {α : Type} (number : α → Option ℚ) (dto : UpdatePlatformDto α) : Except HttpException PlatformChanges :=
  let changes : PlatformChanges :=
    { name := dto.name, status := dto.status, jiraProjectKey := dto.jiraProjectKey, jiraEnabled := dto.jiraEnabled }
  match dto.slaPolicy with
  | none => .ok changes
  | some policy => (validateSlaPolicy number policy).map fun policy => { changes with slaPolicy := some policy }

def platformAudit (admin : AuthenticatedStaff) (action : String) (oldValue newValue : Option String) (id : Uuid) :
    PlatformAudit where
  issueId := none
  actorType := .staff
  actorId := admin.id
  action := action
  oldValue := oldValue
  newValue := newValue
  platformId := id

end AdminService

/-- A request past its reads. `save` re-reads the row first, `none` when it is gone, and then writes. -/
inductive PlatformJob
  | create (dto : CreatePlatformDto) (newSecret : String)
  | save (loaded : PlatformEntity) (changes : PlatformChanges)
  | write (loaded : PlatformEntity) (changes : PlatformChanges) (read : Option PlatformEntity)
  | remove (loaded : PlatformEntity)

/-- `issues` counts the issues that hang on a platform. The last three fields remember which platform was created
under which key, which secrets it was given, and what it was last told to be. -/
structure PlatformRegister where
  platforms : Table fun p : PlatformEntity => p.id
  issues : Uuid → ℕ
  jobs : ℕ → Option (AuthenticatedStaff × PlatformJob)
  audits : List PlatformAudit
  answers : List PlatformAnswer
  created : List (Uuid × String)
  issued : List (Uuid × String)
  told : Uuid → Option PlatformEntity

namespace Sample

def owner : AuthenticatedStaff := ⟨"root", "local:root", "Root", "root@cimp", [⟨.admin, none⟩]⟩

def portal : CreatePlatformDto := ⟨"portal-a", "Portal A", none, none, none, none⟩

def handoffEnv : HandoffService.Env ℕ :=
  HandoffService.Sample.env HandoffService.Sample.minted (HandoffService.Sample.claims [])

end Sample

namespace PlatformRegister

/-- `fail` is a transaction that does not go through. -/
inductive Action (α : Type)
  | create (slot : ℕ) (admin : AuthenticatedStaff) (dto : CreatePlatformDto) (newSecret : String)
  | update (slot : ℕ) (admin : AuthenticatedStaff) (id : Uuid) (dto : UpdatePlatformDto α)
  | rotate (slot : ℕ) (admin : AuthenticatedStaff) (id : Uuid) (newSecret : String)
  | delete (slot : ℕ) (admin : AuthenticatedStaff) (id : Uuid)
  | reread (slot : ℕ)
  | commit (slot : ℕ) (id : Uuid) (now : Time)
  | fail (slot : ℕ)
  | fileIssue (platformId : Uuid)

def start : PlatformRegister := ⟨.empty, fun _ => 0, fun _ => none, [], [], [], [], fun _ => none⟩

def hold (s : PlatformRegister) (slot : ℕ) (job : Option (AuthenticatedStaff × PlatformJob)) : PlatformRegister :=
  { s with jobs := Function.update s.jobs slot job }

def findPlatform (s : PlatformRegister) (id : Uuid) : Except HttpException PlatformEntity :=
  match s.platforms.findOne id with
  | none => .error (.notFound "Platform not found")
  | some platform => .ok platform

def createPlatform (s : PlatformRegister) (dto : CreatePlatformDto) (newSecret : String) :
    Except HttpException PlatformJob :=
  if s.platforms.rows.any fun p => p.key = dto.key then
    .error (.conflict s!"Platform key \"{dto.key}\" already exists.")
  else .ok (.create dto newSecret)

def updatePlatform {α : Type} (number : α → Option ℚ) (s : PlatformRegister) (id : Uuid) (dto : UpdatePlatformDto α) :
    Except HttpException PlatformJob := do
  let platform ← s.findPlatform id
  let changes ← AdminService.platformChanges number dto
  return .save platform changes

def rotateSecret (s : PlatformRegister) (id : Uuid) (newSecret : String) : Except HttpException PlatformJob := do
  let platform ← s.findPlatform id
  return .save platform { handoffSecret := some newSecret }

def deletePlatform (s : PlatformRegister) (id : Uuid) : Except HttpException PlatformJob := do
  let platform ← s.findPlatform id
  if 0 < s.issues id then
    .error (.conflict (s!"\"{platform.key}\" still has {s.issues id} issue(s) and cannot be deleted. " ++
      "Set its status to DISABLED to retire it while keeping the history."))
  else .ok (.remove platform)

def accept (s : PlatformRegister) (slot : ℕ) (admin : AuthenticatedStaff) (job : Except HttpException PlatformJob) :
    PlatformRegister :=
  match job with
  | .error e => { s with answers := s.answers ++ [.refused e] }
  | .ok job => s.hold slot (some (admin, job))

def inserted (s : PlatformRegister) (admin : AuthenticatedStaff) (p : PlatformEntity) : PlatformRegister :=
  -- a generated id is one that was never used
  if p.id ∈ s.created.map Prod.fst then s
  else match p.insert s.platforms with
    | none => s
    | some platforms => { s with
        platforms
        audits := s.audits ++ [AdminService.platformAudit admin "PLATFORM_CREATED" none (some p.key) p.id]
        answers := s.answers ++ [.platform (AdminService.toPlatform p)]
        created := s.created ++ [(p.id, p.key)]
        issued := s.issued ++ [(p.id, p.handoffSecret)]
        told := Function.update s.told p.id (some p) }

/-- What goes with the rows that a save leaves: its audit row, its answer, and what it told. -/
def saved (s : PlatformRegister) (admin : AuthenticatedStaff) (loaded : PlatformEntity) (changes : PlatformChanges)
    (platforms : Table fun p : PlatformEntity => p.id) : PlatformRegister :=
  let entity := loaded.assign changes
  { s with
    platforms
    audits := s.audits ++ [AdminService.platformAudit admin
      (if changes.handoffSecret.isSome then "PLATFORM_SECRET_ROTATED" else "PLATFORM_UPDATED") none none loaded.id]
    answers := s.answers ++ [if changes.handoffSecret.isSome then .secret entity.id entity.key entity.handoffSecret
      else .platform (AdminService.toPlatform entity)]
    issued := s.issued ++ (changes.handoffSecret.map fun secret => (loaded.id, secret)).toList
    told := Function.update s.told loaded.id ((s.told loaded.id).map (PlatformEntity.assign changes)) }

def written (s : PlatformRegister) (admin : AuthenticatedStaff) (loaded : PlatformEntity) (changes : PlatformChanges)
    (read : Option PlatformEntity) : PlatformRegister :=
  match read with
  | none =>
    match (loaded.assign changes).insert s.platforms with
    | none => s
    | some platforms => s.saved admin loaded changes platforms
  | some read => s.saved admin loaded changes
      (s.platforms.update loaded.id ((loaded.assign changes).savedOver read) fun _ => rfl)

def removed (s : PlatformRegister) (admin : AuthenticatedStaff) (loaded : PlatformEntity) : PlatformRegister :=
  if 0 < s.issues loaded.id then s
  else { s with
    platforms := s.platforms.delete loaded.id
    audits := s.audits ++ [AdminService.platformAudit admin "PLATFORM_DELETED" (some loaded.key) none loaded.id]
    answers := s.answers ++ [.removed]
    told := Function.update s.told loaded.id none }

variable {α : Type} (number : α → Option ℚ)

def step (s : PlatformRegister) : Action α → PlatformRegister
  | .create slot admin dto newSecret => s.accept slot admin (s.createPlatform dto newSecret)
  | .update slot admin id dto => s.accept slot admin (s.updatePlatform number id dto)
  | .rotate slot admin id newSecret => s.accept slot admin (s.rotateSecret id newSecret)
  | .delete slot admin id => s.accept slot admin (s.deletePlatform id)
  | .reread slot =>
    match s.jobs slot with
    | some (admin, .save loaded changes) =>
      s.hold slot (some (admin, .write loaded changes (s.platforms.findOne loaded.id)))
    | _ => s
  | .commit slot id now =>
    match s.jobs slot with
    | some (admin, .create dto newSecret) => (s.hold slot none).inserted admin (AdminService.newPlatform dto newSecret id now)
    | some (admin, .write loaded changes read) => (s.hold slot none).written admin loaded changes read
    | some (admin, .remove loaded) => (s.hold slot none).removed admin loaded
    | _ => s
  | .fail slot => s.hold slot none
  | .fileIssue platformId =>
    if (s.platforms.findOne platformId).isNone then s
    else { s with issues := Function.update s.issues platformId (s.issues platformId + 1) }

variable {number} {s : PlatformRegister} {c : PlatformColumn}

def Holds (c : PlatformColumn) (s : PlatformRegister) : Prop :=
  ∀ id, (s.platforms.findOne id).map c.get = (s.told id).map c.get

/-- A value for the column is new to the row that was re-read, or stands already; and where there is none the row that
was re-read has what was loaded, or the row itself has it by now. -/
structure LandsOver (c : PlatformColumn) (loaded : PlatformEntity) (changes : PlatformChanges)
    (read stored : PlatformEntity) : Prop where
  given : ∀ v ∈ c.given changes, v ≠ c.get read ∨ v = c.get stored
  kept : c.given changes = none → c.get loaded = c.get read ∨ c.get loaded = c.get stored

def Lands (c : PlatformColumn) (s : PlatformRegister) : Action α → Prop
  | .commit slot _ _ => ∀ admin loaded changes read, s.jobs slot = some (admin, .write loaded changes read) →
      (read = none → (loaded.assign changes).insert s.platforms = none) ∧
        ∀ r ∈ read, ∀ stored ∈ s.platforms.findOne loaded.id, LandsOver c loaded changes r stored
  | _ => True

theorem changed_given {β : Type} [DecidableEq β] {v read stored : β} :
    changed v read stored = v ↔ v ≠ read ∨ v = stored := by
  unfold changed
  split
  · rename_i h
    simp [h, eq_comm]
  · rename_i h
    simp [h]

theorem changed_kept {β : Type} [DecidableEq β] {loaded read stored : β} :
    changed loaded read stored = stored ↔ loaded = read ∨ loaded = stored := by
  unfold changed
  split
  · rename_i h
    simp [h]
  · rename_i h
    simp [h]

theorem landsOver_iff {loaded read stored : PlatformEntity} {changes : PlatformChanges} :
    c.get ((loaded.assign changes).savedOver read stored) = (c.given changes).getD (c.get stored) ↔
      LandsOver c loaded changes read stored := by
  rw [PlatformEntity.get_savedOver, PlatformEntity.get_assign]
  cases hgiven : c.given changes with
  | none =>
    rw [Option.getD_none, Option.getD_none, changed_kept]
    exact ⟨fun h => ⟨by simp [hgiven], fun _ => h⟩, fun h => h.kept hgiven⟩
  | some v =>
    rw [Option.getD_some, Option.getD_some, changed_given]
    exact ⟨fun h => ⟨by simpa [hgiven] using h, by simp [hgiven]⟩, fun h => h.given v hgiven⟩

theorem Holds.congr {t : PlatformRegister} (hplatforms : t.platforms = s.platforms) (htold : t.told = s.told) :
    t.Holds c ↔ s.Holds c := by
  simp only [Holds, hplatforms, htold]

theorem accept_holds {slot : ℕ} {admin : AuthenticatedStaff} {job : Except HttpException PlatformJob} :
    (s.accept slot admin job).Holds c ↔ s.Holds c := by
  unfold accept
  split
  · exact Holds.congr rfl rfl
  · exact Holds.congr rfl rfl

theorem inserted_holds {admin : AuthenticatedStaff} {p : PlatformEntity} (h : s.Holds c) :
    (s.inserted admin p).Holds c := by
  unfold inserted
  split
  · exact h
  · split
    · exact h
    · rename_i platforms hinsert
      intro id
      simp only [Table.findOne_insert (PlatformEntity.insert_cases hinsert).2]
      by_cases hid : id = p.id
      · simp [hid]
      · simpa [hid] using h id

theorem removed_holds {admin : AuthenticatedStaff} {loaded : PlatformEntity} (h : s.Holds c) :
    (s.removed admin loaded).Holds c := by
  unfold removed
  split
  · exact h
  · intro id
    simp only [Table.findOne_delete]
    by_cases hid : id = loaded.id
    · simp [hid]
    · simpa [hid] using h id

theorem saved_holds_iff {admin : AuthenticatedStaff} {loaded read : PlatformEntity} {changes : PlatformChanges}
    (h : s.Holds c) :
    (s.written admin loaded changes (some read)).Holds c ↔
      ∀ stored ∈ s.platforms.findOne loaded.id, LandsOver c loaded changes read stored := by
  have hrows (id : Uuid) : (s.written admin loaded changes (some read)).platforms.findOne id =
      if id = loaded.id then (s.platforms.findOne id).map ((loaded.assign changes).savedOver read)
      else s.platforms.findOne id :=
    Table.findOne_update s.platforms loaded.id ((loaded.assign changes).savedOver read) (fun _ => rfl) id
  have hothers : (s.written admin loaded changes (some read)).Holds c ↔
      ((s.platforms.findOne loaded.id).map ((loaded.assign changes).savedOver read)).map c.get =
        ((s.told loaded.id).map (PlatformEntity.assign changes)).map c.get := by
    constructor
    · intro hholds
      have hself := hholds loaded.id
      rw [hrows, if_pos rfl] at hself
      simpa [written, saved] using hself
    · intro hself id
      rw [hrows]
      by_cases hid : id = loaded.id
      · simpa [written, saved, hid] using hself
      · simpa [written, saved, hid] using h id
  have hloaded := h loaded.id
  rw [hothers]
  cases hstored : s.platforms.findOne loaded.id with
  | none =>
    rw [hstored, Option.map_none, eq_comm, Option.map_eq_none_iff] at hloaded
    simp [hloaded]
  | some stored =>
    rw [hstored, Option.map_some] at hloaded
    obtain ⟨told, htold, hget⟩ := Option.map_eq_some_iff.mp hloaded.symm
    simp only [htold, Option.map_some, Option.some_inj, Option.mem_def, forall_eq', PlatformEntity.get_assign, hget]
    exact landsOver_iff

theorem reinserted_holds_iff {admin : AuthenticatedStaff} {loaded : PlatformEntity} {changes : PlatformChanges}
    (h : s.Holds c) :
    (s.written admin loaded changes none).Holds c ↔ (loaded.assign changes).insert s.platforms = none := by
  simp only [written]
  cases hinsert : (loaded.assign changes).insert s.platforms with
  | none => exact iff_of_true h rfl
  | some platforms =>
    refine iff_of_false (fun hholds => ?_) (by simp)
    have hrow := (PlatformEntity.insert_cases hinsert).2
    have hloaded := h loaded.id
    have hgone : s.platforms.findOne loaded.id = none := Table.insert_fresh (r := loaded.assign changes) hrow
    rw [hgone, Option.map_none, eq_comm, Option.map_eq_none_iff] at hloaded
    have hself := hholds loaded.id
    simp [saved, Table.findOne_insert hrow, hloaded] at hself

theorem step_holds_iff (s : PlatformRegister) (a : Action α) (h : s.Holds c) :
    (step number s a).Holds c ↔ Lands c s a := by
  cases a with
  | create slot admin dto newSecret => exact iff_of_true (accept_holds.mpr h) trivial
  | update slot admin id dto => exact iff_of_true (accept_holds.mpr h) trivial
  | rotate slot admin id newSecret => exact iff_of_true (accept_holds.mpr h) trivial
  | delete slot admin id => exact iff_of_true (accept_holds.mpr h) trivial
  | reread slot =>
    refine iff_of_true ?_ trivial
    simp only [step]
    split
    · exact h
    · exact h
  | fail slot => exact iff_of_true h trivial
  | fileIssue platformId =>
    refine iff_of_true ?_ trivial
    simp only [step]
    split
    · exact h
    · exact h
  | commit slot id now =>
    have hfreed : (s.hold slot none).Holds c := h
    simp only [step, Lands]
    split
    · rename_i admin dto newSecret hjob
      exact iff_of_true (inserted_holds hfreed) (by simp [hjob])
    · rename_i admin loaded changes read hjob
      simp only [hjob, Option.some_inj, Prod.mk.injEq, PlatformJob.write.injEq]
      cases read with
      | none =>
        rw [reinserted_holds_iff hfreed]
        constructor
        · rintro hinsert _ _ _ _ ⟨rfl, rfl, rfl, rfl⟩
          exact ⟨fun _ => hinsert, by simp⟩
        · intro hlands
          exact (hlands admin loaded changes none ⟨rfl, rfl, rfl, rfl⟩).1 rfl
      | some r =>
        rw [saved_holds_iff hfreed]
        constructor
        · rintro hover _ _ _ _ ⟨rfl, rfl, rfl, rfl⟩
          refine ⟨by simp, fun read hread => ?_⟩
          obtain rfl := Option.some_inj.mp hread
          exact hover
        · intro hlands
          exact (hlands admin loaded changes (some r) ⟨rfl, rfl, rfl, rfl⟩).2 r rfl
    · rename_i admin loaded hjob
      exact iff_of_true (removed_holds hfreed) (by simp [hjob])
    · rename_i hcreate hwrite hremove
      refine iff_of_true h fun admin loaded changes read hjob => absurd hjob (hwrite admin loaded changes read)

/-- However the statements of administrators' requests interleave, a column of every platform holds what the platform
was last told exactly when every save finds a row that suits it. -/
theorem always_holds_iff (number : α → Option ℚ) (c : PlatformColumn) (as : List (Action α)) :
    Always (step number) (Holds c) start as ↔ EveryStep (step number) (Lands c) start as :=
  always_iff_everyStep (I := fun _ => True) (fun _ _ _ => trivial) (fun s a _ h => step_holds_iff s a h) trivial
    (fun _ => rfl) as

def Known (s : PlatformRegister) (p : PlatformEntity) : Prop :=
  (p.id, p.key) ∈ s.created ∧ (p.id, p.handoffSecret) ∈ s.issued

def JobKnown (s : PlatformRegister) : PlatformJob → Prop
  | .create _ _ => True
  | .save loaded _ | .remove loaded => s.Known loaded
  | .write loaded _ read => s.Known loaded ∧ ∀ r ∈ read, s.Known r ∧ r.id = loaded.id

def issuedTo (s : PlatformRegister) (id : Uuid) : List (Uuid × String) := s.issued.filter fun e => e.1 = id

def issuances (s : PlatformRegister) (id : Uuid) : ℕ :=
  s.audits.countP fun a => a.platformId = id && (a.action = "PLATFORM_CREATED" || a.action = "PLATFORM_SECRET_ROTATED")

structure Inv (s : PlatformRegister) : Prop where
  ids : (s.created.map Prod.fst).Nodup
  keys : (s.platforms.rows.map fun p => p.key).Nodup
  rows : ∀ p ∈ s.platforms.rows, s.Known p
  jobs : ∀ slot admin job, s.jobs slot = some (admin, job) → s.JobKnown job
  told : ∀ id, ∀ p ∈ s.told id, (s.issuedTo id).getLast? = some (id, p.handoffSecret)
  audited : ∀ id, s.issuances id = (s.issuedTo id).length
  shown : ∀ id key secret, .secret id key secret ∈ s.answers → (id, secret) ∈ s.issued

theorem Known.mono {t : PlatformRegister} {p : PlatformEntity} (hp : s.Known p) (hcreated : s.created ⊆ t.created)
    (hissued : s.issued ⊆ t.issued) : t.Known p := ⟨hcreated hp.1, hissued hp.2⟩

theorem JobKnown.mono {t : PlatformRegister} {job : PlatformJob} (h : s.JobKnown job) (hcreated : s.created ⊆ t.created)
    (hissued : s.issued ⊆ t.issued) : t.JobKnown job := by
  cases job with
  | create dto newSecret => trivial
  | save loaded changes => exact Known.mono h hcreated hissued
  | remove loaded => exact Known.mono h hcreated hissued
  | write loaded changes read =>
    obtain ⟨hloaded, hread⟩ := h
    exact ⟨hloaded.mono hcreated hissued, fun r hr => ⟨(hread r hr).1.mono hcreated hissued, (hread r hr).2⟩⟩

theorem Inv.key_eq (hs : Inv s) {p q : PlatformEntity} (hp : s.Known p) (hq : s.Known q) (hid : p.id = q.id) :
    p.key = q.key := by
  have h := List.inj_on_of_nodup_map hs.ids hp.1 hq.1 hid
  exact (Prod.mk.inj h).2

theorem Inv.hold (hs : Inv s) {slot : ℕ} {job : Option (AuthenticatedStaff × PlatformJob)}
    (hjob : ∀ held ∈ job, s.JobKnown held.2) : Inv (s.hold slot job) := by
  refine { hs with jobs := fun other admin held hheld => ?_ }
  by_cases hslot : other = slot
  · simp only [PlatformRegister.hold, hslot, Function.update_self] at hheld
    exact hjob _ hheld
  · simp only [PlatformRegister.hold, Function.update_of_ne hslot] at hheld
    exact hs.jobs other admin held hheld

theorem findPlatform_known (hs : Inv s) {id : Uuid} {p : PlatformEntity} (h : s.findPlatform id = .ok p) : s.Known p := by
  unfold findPlatform at h
  split at h
  · cases h
  · rename_i hfound
    cases h
    exact hs.rows _ (Table.mem_of_findOne hfound)

theorem Inv.accept (hs : Inv s) {slot : ℕ} {admin : AuthenticatedStaff} {job : Except HttpException PlatformJob}
    (hjob : ∀ held, job = .ok held → s.JobKnown held) : Inv (s.accept slot admin job) := by
  unfold PlatformRegister.accept
  split
  · refine { hs with shown := fun id key secret hanswer => ?_ }
    apply hs.shown id key secret
    simpa using hanswer
  · rename_i held
    apply hs.hold
    intro job hmem
    cases hmem
    exact hjob held rfl

theorem updatePlatform_known (hs : Inv s) {id : Uuid} {dto : UpdatePlatformDto α} {job : PlatformJob}
    (h : updatePlatform number s id dto = .ok job) : s.JobKnown job := by
  unfold updatePlatform at h
  cases hfound : s.findPlatform id with
  | error e =>
    rw [hfound] at h
    cases h
  | ok p =>
    rw [hfound] at h
    cases hchanges : AdminService.platformChanges number dto with
    | error e =>
      rw [hchanges] at h
      cases h
    | ok changes =>
      rw [hchanges] at h
      cases h
      exact findPlatform_known hs hfound

theorem rotateSecret_known (hs : Inv s) {id : Uuid} {newSecret : String} {job : PlatformJob}
    (h : s.rotateSecret id newSecret = .ok job) : s.JobKnown job := by
  unfold rotateSecret at h
  cases hfound : s.findPlatform id with
  | error e =>
    rw [hfound] at h
    cases h
  | ok p =>
    rw [hfound] at h
    cases h
    exact findPlatform_known hs hfound

theorem deletePlatform_known (hs : Inv s) {id : Uuid} {job : PlatformJob} (h : s.deletePlatform id = .ok job) :
    s.JobKnown job := by
  unfold deletePlatform at h
  cases hfound : s.findPlatform id with
  | error e =>
    rw [hfound] at h
    cases h
  | ok p =>
    rw [hfound, HandoffService.ok_bind] at h
    split at h
    · cases h
    · cases h
      exact findPlatform_known hs hfound

theorem issuedTo_append (issued : List (Uuid × String)) (id : Uuid) (secret : String) (other : Uuid) :
    (issued ++ [(id, secret)]).filter (fun e => e.1 = other) =
      issued.filter (fun e => e.1 = other) ++ if other = id then [(id, secret)] else [] := by
  rw [List.filter_append]
  by_cases hid : other = id
  · simp [hid]
  · simp [hid, Ne.symm hid]

theorem Inv.enter (hs : Inv s) {p : PlatformEntity} {platforms : Table fun p : PlatformEntity => p.id}
    (h : p.insert s.platforms = some platforms) : (platforms.rows.map fun p => p.key).Nodup := by
  obtain ⟨hkey, hinsert⟩ := PlatformEntity.insert_cases h
  rw [Table.rows_insert hinsert, List.map_append, List.nodup_append]
  refine ⟨hs.keys, by simp, ?_⟩
  rintro k hk q hq rfl
  obtain ⟨row, hrow, rfl⟩ := List.mem_map.mp hk
  simp only [List.map_cons, List.map_nil, List.mem_singleton] at hq
  exact hkey row hrow hq

theorem inserted_inv (hs : Inv s) {admin : AuthenticatedStaff} {p : PlatformEntity} : Inv (s.inserted admin p) := by
  unfold inserted
  split
  · exact hs
  · rename_i hfresh
    split
    · exact hs
    · rename_i platforms hinsert
      have hcreated : s.created ⊆ s.created ++ [(p.id, p.key)] := List.subset_append_left _ _
      have hissued : s.issued ⊆ s.issued ++ [(p.id, p.handoffSecret)] := List.subset_append_left _ _
      constructor
      · rw [List.map_append, List.nodup_append]
        refine ⟨hs.ids, by simp, ?_⟩
        rintro id hid other hother rfl
        simp only [List.map_cons, List.map_nil, List.mem_singleton] at hother
        exact hfresh (hother ▸ hid)
      · exact hs.enter hinsert
      · intro q hq
        obtain hold | rfl := (Table.mem_insert (PlatformEntity.insert_cases hinsert).2).mp hq
        · exact (hs.rows q hold).mono hcreated hissued
        · exact ⟨by simp, by simp⟩
      · exact fun slot admin job hjob => (hs.jobs slot admin job hjob).mono hcreated hissued
      · intro id q hq
        simp only [issuedTo, issuedTo_append]
        by_cases hid : id = p.id
        · simp only [hid, Function.update_self, Option.mem_some_iff] at hq
          simp [hid, hq]
        · simp only [Function.update_of_ne hid] at hq
          simpa [issuedTo, hid] using hs.told id q hq
      · intro id
        have haudited := hs.audited id
        simp only [issuances, issuedTo, issuedTo_append, List.countP_append, List.length_append] at haudited ⊢
        by_cases hid : id = p.id
        · simp [hid, AdminService.platformAudit]
          simpa [hid] using haudited
        · simpa [hid, Ne.symm hid, AdminService.platformAudit] using haudited
      · intro id key secret hanswer
        apply hissued
        apply hs.shown id key secret
        simpa using hanswer

theorem saved_inv (hs : Inv s) {admin : AuthenticatedStaff} {loaded : PlatformEntity} {changes : PlatformChanges}
    {platforms : Table fun p : PlatformEntity => p.id}
    (hkeys : (platforms.rows.map fun p => p.key).Nodup)
    (hrows : ∀ p ∈ platforms.rows, (p.id, p.key) ∈ s.created ∧
      ((p.id, p.handoffSecret) ∈ s.issued ∨ p.id = loaded.id ∧ changes.handoffSecret = some p.handoffSecret)) :
    Inv (s.saved admin loaded changes platforms) := by
  have hissued : s.issued ⊆ (s.saved admin loaded changes platforms).issued := List.subset_append_left _ _
  have happend (id : Uuid) {secret : String} (h : changes.handoffSecret = some secret) :
      (s.saved admin loaded changes platforms).issuedTo id =
        s.issuedTo id ++ if id = loaded.id then [(loaded.id, secret)] else [] := by
    simp only [issuedTo, saved, h, Option.map_some, Option.toList_some, issuedTo_append]
  constructor
  · exact hs.ids
  · exact hkeys
  · intro p hp
    obtain ⟨hcreated, hold | ⟨hid, hnew⟩⟩ := hrows p hp
    · exact ⟨hcreated, hissued hold⟩
    · exact ⟨hcreated, List.mem_append_right _ (by simp [hnew, hid])⟩
  · exact fun slot admin job hjob => (hs.jobs slot admin job hjob).mono (List.Subset.refl _) hissued
  · intro id p hp
    cases hchanges : changes.handoffSecret with
    | none =>
      have hsame : (s.saved admin loaded changes platforms).issuedTo id = s.issuedTo id := by
        simp [saved, issuedTo, hchanges]
      rw [hsame]
      by_cases hid : id = loaded.id
      · simp only [saved, hid, Function.update_self, Option.mem_def, Option.map_eq_some_iff] at hp
        obtain ⟨q, hq, rfl⟩ := hp
        rw [hid]
        simpa [PlatformEntity.assign, hchanges] using hs.told loaded.id q hq
      · simp only [saved, Function.update_of_ne hid] at hp
        exact hs.told id p hp
    | some secret =>
      rw [happend id hchanges]
      by_cases hid : id = loaded.id
      · simp only [saved, hid, Function.update_self, Option.mem_def, Option.map_eq_some_iff] at hp
        obtain ⟨q, hq, rfl⟩ := hp
        simp [hid, PlatformEntity.assign, hchanges]
      · simp only [saved, Function.update_of_ne hid] at hp
        simpa [hid] using hs.told id p hp
  · intro id
    have haudited := hs.audited id
    cases hchanges : changes.handoffSecret with
    | none => simpa [saved, issuances, issuedTo, hchanges, AdminService.platformAudit] using haudited
    | some secret =>
      rw [happend id hchanges]
      simp only [issuances, saved, List.countP_append, List.length_append, hchanges] at haudited ⊢
      by_cases hid : id = loaded.id
      · simpa [hid, AdminService.platformAudit] using haudited
      · simpa [hid, Ne.symm hid, AdminService.platformAudit] using haudited
  · intro id key secret hanswer
    cases hchanges : changes.handoffSecret with
    | none =>
      apply hissued
      apply hs.shown id key secret
      simpa [saved, hchanges] using hanswer
    | some newSecret =>
      simp only [saved, hchanges, Option.isSome_some, if_true, List.mem_append, List.mem_singleton] at hanswer
      obtain hold | hnew := hanswer
      · exact hissued (hs.shown id key secret hold)
      · obtain ⟨rfl, -, rfl⟩ := PlatformAnswer.secret.inj hnew
        exact List.mem_append_right _ (by simp [PlatformEntity.assign, hchanges])

theorem changed_same {β : Type} [DecidableEq β] {v read stored : β} (h : v = stored) : changed v read stored = stored :=
  changed_kept.mpr (.inr h)

theorem written_inv (hs : Inv s) {admin : AuthenticatedStaff} {loaded : PlatformEntity} {changes : PlatformChanges}
    {read : Option PlatformEntity} (hloaded : s.Known loaded) : Inv (s.written admin loaded changes read) := by
  have hentity {p : PlatformEntity} (hid : p.id = loaded.id) (hsecret : p.handoffSecret = (loaded.assign changes).handoffSecret) :
      (p.id, p.handoffSecret) ∈ s.issued ∨ p.id = loaded.id ∧ changes.handoffSecret = some p.handoffSecret := by
    rw [hsecret, hid]
    cases hchanges : changes.handoffSecret with
    | none => exact .inl (by simpa [PlatformEntity.assign, hchanges] using hloaded.2)
    | some secret => exact .inr ⟨rfl, by simp [PlatformEntity.assign, hchanges]⟩
  unfold written
  split
  · split
    · exact hs
    · rename_i platforms hinsert
      refine saved_inv hs (hs.enter hinsert) fun p hp => ?_
      obtain hold | rfl := (Table.mem_insert (PlatformEntity.insert_cases hinsert).2).mp hp
      · exact ⟨(hs.rows p hold).1, .inl (hs.rows p hold).2⟩
      · exact ⟨hloaded.1, hentity rfl rfl⟩
  · rename_i read
    have hkey : ∀ p ∈ s.platforms.rows, p.id = loaded.id → ((loaded.assign changes).savedOver read p).key = p.key :=
      fun p hp hid => changed_same (hs.key_eq (p := loaded) hloaded (hs.rows p hp) hid.symm)
    refine saved_inv hs ?_ fun p hp => ?_
    · have hsame : (s.platforms.update loaded.id ((loaded.assign changes).savedOver read) fun _ => rfl).rows.map
          (fun p => p.key) = s.platforms.rows.map fun p => p.key := by
        simp only [Table.update, List.map_map]
        apply List.map_congr_left
        intro p hp
        simp only [Function.comp_apply]
        split
        · exact hkey p hp ‹_›
        · rfl
      rw [hsame]
      exact hs.keys
    · obtain ⟨q, hq, rfl⟩ := List.mem_map.mp hp
      split
      · rename_i hid
        have hknown := hs.rows q hq
        refine ⟨by rw [hkey q hq hid]; exact hknown.1, ?_⟩
        by_cases hsecret : (loaded.assign changes).handoffSecret = read.handoffSecret
        · exact .inl (by simpa [PlatformEntity.savedOver, changed, hsecret] using hknown.2)
        · exact hentity hid (by simp [PlatformEntity.savedOver, changed, hsecret])
      · exact ⟨(hs.rows q hq).1, .inl (hs.rows q hq).2⟩

theorem removed_inv (hs : Inv s) {admin : AuthenticatedStaff} {loaded : PlatformEntity} :
    Inv (s.removed admin loaded) := by
  unfold removed
  split
  · exact hs
  · constructor
    · exact hs.ids
    · exact hs.keys.sublist (List.filter_sublist.map _)
    · exact fun p hp => hs.rows p (List.mem_of_mem_filter hp)
    · exact hs.jobs
    · intro id p hp
      by_cases hid : id = loaded.id
      · simp [hid] at hp
      · simp only [Function.update_of_ne hid] at hp
        exact hs.told id p hp
    · intro id
      simpa [issuances, issuedTo, AdminService.platformAudit] using hs.audited id
    · intro id key secret hanswer
      apply hs.shown id key secret
      simpa using hanswer

theorem step_inv (s : PlatformRegister) (a : Action α) (hs : Inv s) : Inv (step number s a) := by
  have hfreed (slot : ℕ) : Inv (s.hold slot none) := hs.hold (by simp)
  cases a with
  | create slot admin dto newSecret =>
    apply hs.accept
    intro job hjob
    unfold createPlatform at hjob
    split at hjob
    · cases hjob
    · cases hjob
      trivial
  | update slot admin id dto => exact hs.accept fun _ => updatePlatform_known hs
  | rotate slot admin id newSecret => exact hs.accept fun _ => rotateSecret_known hs
  | delete slot admin id => exact hs.accept fun _ => deletePlatform_known hs
  | fail slot => exact hfreed slot
  | fileIssue platformId =>
    simp only [step]
    split
    · exact hs
    · exact { hs with }
  | reread slot =>
    simp only [step]
    split
    · rename_i admin loaded changes hjob
      apply hs.hold
      intro held hheld
      cases hheld
      refine ⟨hs.jobs slot admin _ hjob, fun r hr => ?_⟩
      exact ⟨hs.rows r (Table.mem_of_findOne hr), Table.findOne_key (t := s.platforms) hr⟩
    · exact hs
  | commit slot id now =>
    simp only [step]
    split
    · exact inserted_inv (hfreed slot)
    · rename_i admin loaded changes read hjob
      exact written_inv (hfreed slot) (hs.jobs slot admin _ hjob).1
    · exact removed_inv (hfreed slot)
    · exact hs

theorem start_inv : Inv start where
  ids := List.nodup_nil
  keys := List.nodup_nil
  rows := fun _ h => absurd h List.not_mem_nil
  jobs := by
    intro slot admin job h
    cases h
  told := by
    intro id p hp
    cases hp
  audited := fun _ => rfl
  shown := fun _ _ _ h => absurd h List.not_mem_nil

def renameOverRotation : List (Action ℚ) :=
  [.create 0 Sample.owner Sample.portal "first", .commit 0 "p-1" 0,
    .update 0 Sample.owner "p-1" ⟨some "Portal B", none, none, none, none⟩,
    .rotate 1 Sample.owner "p-1" "secret", .reread 1, .commit 1 "-" 1, .reread 0, .commit 0 "-" 2]

-- the retired secret is back
example : ((exec (step some) start renameOverRotation).platforms.findOne "p-1").map (fun p => p.handoffSecret) =
    some "first" := by decide

def env {ν : Type} (base : HandoffService.Env ν) (s : PlatformRegister) : HandoffService.Env ν :=
  { base with platforms := s.platforms.rows.map PlatformEntity.toHandoffPlatform }

structure Opens {ν : Type} (base : HandoffService.Env ν) (s : PlatformRegister) (token : Text)
    (ctx : HandoffService.Context ν) (p : PlatformEntity) : Prop where
  row : p ∈ s.platforms.rows
  active : p.status = .active
  id : ctx.platformId = p.id
  key : ctx.platformKey = p.key
  signed : base.jwt.signed token p.handoffSecret ["HS256"]

theorem contextOf_platform {ν : Type} {env : HandoffService.Env ν} {platform : HandoffPlatform} {claims : Json.Value ν}
    {ctx : HandoffService.Context ν} (h : HandoffService.contextOf env platform claims = .ok ctx) :
    ctx.platformId = platform.id ∧ ctx.platformKey = platform.key := by
  cases claims with
  | obj fields =>
    simp only [HandoffService.contextOf, HandoffService.member, HandoffService.ok_bind] at h
    split at h
    · split at h
      · cases h
      · cases hlocale : HandoffService.baseLocale env (HandoffService.property (.obj fields) "locale") with
        | error e =>
          rw [hlocale] at h
          cases h
        | ok locale =>
          rw [hlocale] at h
          cases h
          exact ⟨rfl, rfl⟩
    · cases h
  | null => cases h
  | bool b | num x | str x | arr items => cases h

theorem opens_of_verify {ν : Type} [LT ν] {base : HandoffService.Env ν} (hjwt : base.jwt.Documented) {token : Text}
    {ctx : HandoffService.Context ν} (h : HandoffService.verify (env base s) token = .ok ctx) :
    ∃ p, Opens base s token ctx p := by
  unfold HandoffService.verify at h
  split at h
  · cases h
  · simp only at h
    split at h
    · cases h
    · cases hfound : HandoffService.findOne (env base s)
        ((env base s).text ((HandoffService.property ((env base s).jwt.decode token) "platformKey").getD .null)) with
      | error e =>
        rw [hfound] at h
        cases h
      | ok found =>
        rw [hfound, HandoffService.ok_bind] at h
        cases found with
        | none => cases h
        | some platform =>
          simp only at h
          split at h
          · cases h
          · rename_i hactive
            cases hverified : (env base s).jwt.verify token platform.handoffSecret HandoffService.options with
            | none =>
              rw [hverified] at h
              cases h
            | some claims =>
              rw [hverified] at h
              obtain ⟨hid, hkey⟩ := contextOf_platform h
              unfold HandoffService.findOne at hfound
              split at hfound
              · cases hfound
              · have hmem := List.mem_of_find?_eq_some (Except.ok.inj hfound)
                obtain ⟨p, hp, rfl⟩ := List.mem_map.mp hmem
                exact ⟨p, hp, by simpa using hactive, hid, hkey, hjwt.signature _ _ _ _ hverified⟩

/-- A token is let in under a secret that was issued for the platform it names, no two platforms share a key, an id
keeps its key, and every secret that was issued is in the audit trail. -/
structure Accountable {ν : Type} (base : HandoffService.Env ν) (s : PlatformRegister) : Prop where
  accepted : ∀ token ctx, HandoffService.verify (env base s) token = .ok ctx →
    ∃ p, Opens base s token ctx p ∧ (ctx.platformId, ctx.platformKey) ∈ s.created ∧
      (ctx.platformId, p.handoffSecret) ∈ s.issued
  keys : (s.platforms.rows.map fun p => p.key).Nodup
  ids : (s.created.map Prod.fst).Nodup
  keeps : ∀ p ∈ s.platforms.rows, (p.id, p.key) ∈ s.created
  shown : ∀ id key secret, .secret id key secret ∈ s.answers → (id, secret) ∈ s.issued
  audited : ∀ id, s.issuances id = (s.issuedTo id).length

theorem always_accountable {ν : Type} [LT ν] (base : HandoffService.Env ν) (hjwt : base.jwt.Documented)
    (as : List (Action α)) : Always (step number) (Accountable base) start as := by
  apply (always_of_step step_inv start_inv as).mono
  intro s hs
  refine ⟨fun token ctx h => ?_, hs.keys, hs.ids, fun p hp => (hs.rows p hp).1, hs.shown, hs.audited⟩
  obtain ⟨p, hp⟩ := opens_of_verify hjwt h
  have hknown := hs.rows p hp.row
  rw [hp.id, hp.key]
  exact ⟨p, hp, hknown.1, hknown.2⟩

theorem always_accountable_portal :
    Always (step some) (Accountable Sample.handoffEnv) start (renameOverRotation.take 6) ∧
      ((HandoffService.verify (env Sample.handoffEnv (exec (step some) start (renameOverRotation.take 6)))
        HandoffService.Sample.minted).toOption.map
          HandoffService.Context.platformId) = some "p-1" :=
  ⟨always_accountable _ HandoffService.Sample.jwt_documented _, by decide +kernel⟩

/-- The token's platform was last told to be active, and the token is signed under the secret that was issued for the
platform last. -/
def LetsIn {ν : Type} (base : HandoffService.Env ν) (s : PlatformRegister) : Prop :=
  ∀ token ctx, HandoffService.verify (env base s) token = .ok ctx →
    ∃ p ∈ s.told ctx.platformId, p.status = .active ∧ base.jwt.signed token p.handoffSecret ["HS256"] ∧
      (s.issuedTo ctx.platformId).getLast? = some (ctx.platformId, p.handoffSecret)

/-- A secret that was rotated away and a platform that was disabled or deleted let nobody in, as long as the saves
suit the secrets and the statuses that they find. -/
theorem always_letsIn {ν : Type} [LT ν] (base : HandoffService.Env ν) (hjwt : base.jwt.Documented)
    {as : List (Action α)} (hsecret : EveryStep (step number) (Lands .handoffSecret) start as)
    (hstatus : EveryStep (step number) (Lands .status) start as) :
    Always (step number) (LetsIn base) start as := by
  have hinv : Always (step number) Inv start as := always_of_step step_inv start_inv as
  have hholds := ((always_holds_iff number .handoffSecret as).mpr hsecret).and
    ((always_holds_iff number .status as).mpr hstatus)
  apply (hinv.and hholds).mono
  rintro s ⟨hs, hsecret, hstatus⟩ token ctx h
  obtain ⟨p, hp⟩ := opens_of_verify hjwt h
  have hrow : s.platforms.findOne ctx.platformId = some p := hp.id ▸ Table.findOne_of_mem hp.row
  have htold := hsecret ctx.platformId
  rw [hrow, Option.map_some, eq_comm, Option.map_eq_some_iff] at htold
  obtain ⟨q, hq, hsame⟩ := htold
  have hactive := hstatus ctx.platformId
  rw [hrow, hq, Option.map_some, Option.map_some, Option.some_inj] at hactive
  have hsecretEq : q.handoffSecret = p.handoffSecret := hsame
  have hstatusEq : p.status = q.status := hactive
  refine ⟨q, hq, hstatusEq ▸ hp.active, hsecretEq ▸ hp.signed, hs.told _ q hq⟩

theorem always_letsIn_rotated :
    Always (step some) (LetsIn Sample.handoffEnv) start (renameOverRotation.take 6) := by
  have hlands (c : PlatformColumn) : EveryStep (step some) (Lands c) start (renameOverRotation.take 6) := by
    refine ⟨trivial, ?_, trivial, trivial, trivial, ?_, trivial⟩
    · intro admin loaded changes read h
      cases h
    · intro admin loaded changes read h
      cases h
      constructor
      · intro hgone
        cases hgone
      · rintro r hr stored hstored
        cases hr
        cases hstored
        apply landsOver_iff.mp
        cases c <;> rfl
  exact always_letsIn _ HandoffService.Sample.jwt_documented (hlands _) (hlands _)

end PlatformRegister

end Cimp
