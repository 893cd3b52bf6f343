import Cimp.Jira.Outbound
import Cimp.Lib.Execution
import Cimp.Reporter.Intake
import Mathlib.Logic.Function.Basic

namespace Cimp

open Execution

def maxAttempts : ℕ := 3

/-- `onIssueCreated` between its awaits. -/
inductive SyncRun
  | loaded (issueId : Uuid)
  | attempting (issueId : Uuid) (attempt : ℕ)
  | created (issueId : Uuid) (key : String)
  | pushing (issueId : Uuid)
  | failing (issueId : Uuid)
deriving DecidableEq

namespace SyncRun

def issueId : SyncRun → Uuid
  | .loaded i | .attempting i _ | .created i _ | .pushing i | .failing i => i

def claimed : SyncRun → Bool
  | .loaded _ => false
  | _ => true

def gaveUp : SyncRun → Bool
  | .failing _ => true
  | _ => false

end SyncRun

/-- `tickets` are the issues Jira was made to create. -/
structure JiraSync where
  db : Db
  clock : Time
  runs : ℕ → Option SyncRun
  tickets : List (Uuid × String)

namespace JiraSync

/-- `attempt` is an answer of Jira, a key or a failure; `push` is the end of `syncAttachments`. -/
inductive Action
  | tick (d : ℕ)
  | read (run : ℕ) (issueId : Uuid)
  | claim (run : ℕ) (fails : Bool)
  | attempt (run : ℕ) (answer : Option String)
  | record (run : ℕ) (fails : Bool)
  | push (run : ℕ) (throws : Bool)
  | markFailed (run : ℕ) (fails : Bool)
deriving DecidableEq

def start (db : Db) (clock : Time) : JiraSync := ⟨db, clock, fun _ => none, []⟩

def ticketsOf (s : JiraSync) (issueId : Uuid) : List (Uuid × String) := s.tickets.filter fun t => t.1 = issueId

def move (s : JiraSync) (run : ℕ) (r : Option SyncRun) : JiraSync := { s with runs := Function.update s.runs run r }

def read (cfg : Config) (s : JiraSync) (run : ℕ) (issueId : Uuid) : JiraSync :=
  match s.db.issues.findOne issueId with
  | none => s
  | some issue =>
    if cfg.jiraEnabled issue.platform = false then s
    else if issue.jiraIssueKey.any (fun key => key ≠ "") ∨ issue.jiraSyncStatus = .synced then s
    else if issue.jiraSyncStatus = .pending ∧ JiraListener.isPendingClaimStale s.clock issue = false then s
    else s.move run (some (.loaded issueId))

def step (cfg : Config) (s : JiraSync) : Action → JiraSync
  | .tick d => { s with clock := s.clock + d }
  | .read run issueId => if (s.runs run).isSome then s else s.read cfg run issueId
  | .claim run fails =>
    match s.runs run with
    | some (.loaded i) =>
      if fails then s.move run none
      else { s.move run (some (.attempting i 1)) with db := JiraListener.update s.clock i none .pending s.db }
    | _ => s
  | .attempt run answer =>
    match s.runs run, answer with
    | some (.attempting i _), some key => { s.move run (some (.created i key)) with tickets := s.tickets ++ [(i, key)] }
    | some (.attempting i n), none => s.move run (some (if n < maxAttempts then .attempting i (n + 1) else .failing i))
    | _, _ => s
  | .record run fails =>
    match s.runs run with
    | some (.created i key) =>
      if fails then s.move run (some (.failing i))
      else { s.move run (some (.pushing i)) with db := JiraListener.update s.clock i (some key) .synced s.db }
    | _ => s
  | .push run throws =>
    match s.runs run with
    | some (.pushing i) => s.move run (if throws then some (.failing i) else none)
    | _ => s
  | .markFailed run fails =>
    match s.runs run with
    | some (.failing i) =>
      if fails then s.move run none
      else { s.move run none with db := JiraListener.update s.clock i none .failed s.db }
    | _ => s

def KeysMatch (db : Db) : Prop := ∀ row ∈ db.issues.rows, row.jiraIssueKey.isSome = true ↔ row.jiraSyncStatus = .synced

instance decidableKeysMatch (db : Db) : Decidable (KeysMatch db) := List.decidableBAll
  (fun row : Issue => row.jiraIssueKey.isSome = true ↔ row.jiraSyncStatus = .synced) db.issues.rows

def OneTicket (s : JiraSync) : Prop := ∀ i, (s.ticketsOf i).length ≤ 1

/-- Where no run is under way for an issue, its key is recorded just when it counts as synced. -/
def Recorded (s : JiraSync) : Prop := ∀ i, (∀ k, ∀ r ∈ s.runs k, r.issueId ≠ i) → ∀ row ∈ s.db.issues.findOne i,
  row.jiraIssueKey.isSome = true ↔ row.jiraSyncStatus = .synced

/-- A claim finds the row unclaimed and no ticket made, and no issue with a key is marked as failed. -/
def ClaimsAlone (s : JiraSync) : Action → Prop
  | .claim run fails => ∀ r ∈ s.runs run, r.claimed = false → fails = false → ∀ row ∈ s.db.issues.findOne r.issueId,
      row.jiraSyncStatus ≠ .pending ∧ row.jiraIssueKey = none ∧ s.ticketsOf r.issueId = []
  | .markFailed run fails => ∀ r ∈ s.runs run, r.gaveUp = true → fails = false →
      ∀ row ∈ s.db.issues.findOne r.issueId, row.jiraIssueKey = none
  | _ => True

instance decidableClaimsAlone (s : JiraSync) : (a : Action) → Decidable (ClaimsAlone s a)
  | .tick _ | .read _ _ | .attempt _ _ | .record _ _ | .push _ _ => isTrue trivial
  | .claim run fails => inferInstanceAs (Decidable (∀ r ∈ s.runs run, r.claimed = false → fails = false →
      ∀ row ∈ s.db.issues.findOne r.issueId,
        row.jiraSyncStatus ≠ .pending ∧ row.jiraIssueKey = none ∧ s.ticketsOf r.issueId = []))
  | .markFailed run fails => inferInstanceAs (Decidable (∀ r ∈ s.runs run, r.gaveUp = true → fails = false →
      ∀ row ∈ s.db.issues.findOne r.issueId, row.jiraIssueKey = none))

/-- No run takes a claim under way for an abandoned one. -/
def FindsFresh (s : JiraSync) : Action → Prop
  | .read _ issueId => ∀ row ∈ s.db.issues.findOne issueId,
      row.jiraSyncStatus = .pending → JiraListener.isPendingClaimStale s.clock row = false
  | _ => True

instance decidableFindsFresh (s : JiraSync) : (a : Action) → Decidable (FindsFresh s a)
  | .read _ issueId => inferInstanceAs (Decidable (∀ row ∈ s.db.issues.findOne issueId,
      row.jiraSyncStatus = .pending → JiraListener.isPendingClaimStale s.clock row = false))
  | .tick _ | .claim _ _ | .attempt _ _ | .record _ _ | .push _ _ | .markFailed _ _ => isTrue trivial

/-- What the row and the tickets of an issue are while a run is at work on it. -/
def Fits (r : SyncRun) (row : Issue) (tickets : List (Uuid × String)) : Prop :=
  match r with
  | .loaded _ => True
  | .attempting _ _ => row.jiraSyncStatus = .pending ∧ row.jiraIssueKey = none ∧ tickets = []
  | .created _ _ => row.jiraSyncStatus = .pending ∧ row.jiraIssueKey = none ∧ tickets.length ≤ 1
  | .pushing _ => row.jiraSyncStatus = .synced ∧ row.jiraIssueKey.isSome = true ∧ tickets.length ≤ 1
  | .failing _ => (row.jiraSyncStatus = .pending ∧ row.jiraIssueKey = none ∨
      row.jiraSyncStatus = .synced ∧ row.jiraIssueKey.isSome = true) ∧ tickets.length ≤ 1

def Rests (row : Issue) (tickets : List (Uuid × String)) : Prop :=
  (row.jiraIssueKey.isSome = true ↔ row.jiraSyncStatus = .synced) ∧ tickets.length ≤ 1

structure Inv (s : JiraSync) : Prop where
  there : ∀ k, ∀ r ∈ s.runs k, (s.db.issues.findOne r.issueId).isSome = true
  alone : ∀ k l, ∀ r ∈ s.runs k, ∀ q ∈ s.runs l, r.claimed = true → q.claimed = true → r.issueId = q.issueId → k = l
  fits : ∀ k, ∀ r ∈ s.runs k, ∀ row ∈ s.db.issues.findOne r.issueId, Fits r row (s.ticketsOf r.issueId)
  rests : ∀ i, (∀ k, ∀ r ∈ s.runs k, r.claimed = true → r.issueId ≠ i) →
    ∀ row ∈ s.db.issues.findOne i, Rests row (s.ticketsOf i)
  known : ∀ i, s.db.issues.findOne i = none → s.ticketsOf i = []

variable {cfg : Config} {s t : JiraSync} {run : ℕ} {i : Uuid}

theorem Inv.handover {r' : Option SyncRun} (h : Inv s) (hruns : t.runs = Function.update s.runs run r')
    (hrun : ∃ r ∈ s.runs run, r.issueId = i) (hissue : ∀ q ∈ r', q.issueId = i)
    (hothers : ∀ k, k ≠ run → ∀ r ∈ s.runs k, r.claimed = true → r.issueId ≠ i)
    (hrows : ∀ j, j ≠ i → t.db.issues.findOne j = s.db.issues.findOne j)
    (hthere : (t.db.issues.findOne i).isSome = (s.db.issues.findOne i).isSome)
    (htickets : ∀ j, j ≠ i → t.ticketsOf j = s.ticketsOf j)
    (hfits : ∀ q ∈ r', ∀ row ∈ t.db.issues.findOne i, Fits q row (t.ticketsOf i))
    (hrests : (∀ q ∈ r', q.claimed = false) → ∀ row ∈ t.db.issues.findOne i, Rests row (t.ticketsOf i)) : Inv t := by
  have hself : t.runs run = r' := by rw [hruns, Function.update_self]
  have hother : ∀ k, k ≠ run → t.runs k = s.runs k := by
    intro k hk
    rw [hruns, Function.update_of_ne hk]
  obtain ⟨r₀, hr₀, rfl⟩ := hrun
  have hthere' : (t.db.issues.findOne r₀.issueId).isSome = true := hthere.trans (h.there run r₀ hr₀)
  constructor
  · intro k r hr
    by_cases hissue' : r.issueId = r₀.issueId
    · rw [hissue']
      exact hthere'
    · by_cases hk : k = run
      · rw [hk, hself] at hr
        exact absurd (hissue r hr) hissue'
      · rw [hother k hk] at hr
        rw [hrows _ hissue']
        exact h.there k r hr
  · intro k l r hr q hq hrc hqc hsame
    by_cases hk : k = run
    · by_cases hl : l = run
      · rw [hk, hl]
      · rw [hk, hself] at hr
        rw [hother l hl] at hq
        exact absurd (hsame.symm.trans (hissue r hr)) (hothers l hl q hq hqc)
    · rw [hother k hk] at hr
      by_cases hl : l = run
      · rw [hl, hself] at hq
        exact absurd (hsame.trans (hissue q hq)) (hothers k hk r hr hrc)
      · rw [hother l hl] at hq
        exact h.alone k l r hr q hq hrc hqc hsame
  · intro k r hr row hrow
    by_cases hk : k = run
    · rw [hk, hself] at hr
      rw [hissue r hr] at hrow ⊢
      exact hfits r hr row hrow
    · rw [hother k hk] at hr
      by_cases hissue' : r.issueId = r₀.issueId
      · cases r with
        | loaded _ => trivial
        | attempting _ _ | created _ _ | pushing _ | failing _ => exact absurd hissue' (hothers k hk _ hr rfl)
      · rw [hrows _ hissue'] at hrow
        rw [htickets _ hissue']
        exact h.fits k r hr row hrow
  · intro j hfree row hrow
    by_cases hj : j = r₀.issueId
    · subst hj
      refine hrests (fun q hq => ?_) row hrow
      by_contra hclaimed
      simp only [Bool.not_eq_false] at hclaimed
      exact hfree run q (hself ▸ hq) hclaimed (hissue q hq)
    · rw [hrows j hj] at hrow
      rw [htickets j hj]
      refine h.rests j (fun k r hr hclaimed => ?_) row hrow
      by_cases hk : k = run
      · subst hk
        rw [Option.mem_def.mp hr₀] at hr
        cases hr
        exact fun he => hj he.symm
      · exact hfree k r (hother k hk ▸ hr) hclaimed
  · intro j hnone
    by_cases hj : j = r₀.issueId
    · rw [← hj, hnone] at hthere'
      cases hthere'
    · rw [hrows j hj] at hnone
      rw [htickets j hj]
      exact h.known j hnone

theorem findOne_update {now : Time} {key : Option String} {status : JiraSyncStatus} {db : Db} (j : Uuid) :
    (JiraListener.update now i key status db).issues.findOne j =
      if j = i then (db.issues.findOne j).map (Issue.synced now key status) else db.issues.findOne j :=
  Table.findOne_update _ _ _ (Issue.synced_id now key status) j

theorem Inv.proceed {r : SyncRun} {r' : Option SyncRun} {f : Issue → Issue} (h : Inv s) (hr : r ∈ s.runs run)
    (hclaimed : r.claimed = true) (hruns : t.runs = Function.update s.runs run r')
    (hissue : ∀ q ∈ r', q.issueId = r.issueId)
    (hrows : ∀ j, t.db.issues.findOne j =
      if j = r.issueId then (s.db.issues.findOne j).map f else s.db.issues.findOne j)
    (htickets : ∀ j, j ≠ r.issueId → t.ticketsOf j = s.ticketsOf j)
    (hfits : ∀ row ∈ s.db.issues.findOne r.issueId, Fits r row (s.ticketsOf r.issueId) →
      ∀ q ∈ r', Fits q (f row) (t.ticketsOf r.issueId))
    (hrests : ∀ row ∈ s.db.issues.findOne r.issueId, Fits r row (s.ticketsOf r.issueId) →
      (∀ q ∈ r', q.claimed = false) → Rests (f row) (t.ticketsOf r.issueId)) : Inv t := by
  have hfound : ∀ row' ∈ t.db.issues.findOne r.issueId, ∃ row ∈ s.db.issues.findOne r.issueId, f row = row' := by
    intro row' hrow'
    rw [hrows, if_pos rfl] at hrow'
    obtain ⟨row, hrow, rfl⟩ := Option.map_eq_some_iff.mp hrow'
    exact ⟨row, hrow, rfl⟩
  refine h.handover hruns ⟨r, hr, rfl⟩ hissue (fun k hk q hq hqc hsame => ?_) (fun j hj => ?_) ?_ htickets
    (fun q hq row' hrow' => ?_) fun hfree row' hrow' => ?_
  · exact hk (h.alone k run q hq r hr hqc hclaimed hsame)
  · rw [hrows, if_neg hj]
  · rw [hrows, if_pos rfl, Option.isSome_map]
  · obtain ⟨row, hrow, rfl⟩ := hfound row' hrow'
    exact hfits row hrow (h.fits run r hr row hrow) q hq
  · obtain ⟨row, hrow, rfl⟩ := hfound row' hrow'
    exact hrests row hrow (h.fits run r hr row hrow) hfree

theorem Inv.standBy {r' : Option SyncRun} (h : Inv s) (hbefore : ∀ r ∈ s.runs run, r.claimed = false)
    (hafter : ∀ q ∈ r', q.claimed = false ∧ (s.db.issues.findOne q.issueId).isSome = true) : Inv (s.move run r') := by
  have hself : (s.move run r').runs run = r' := Function.update_self ..
  have hother : ∀ k, k ≠ run → (s.move run r').runs k = s.runs k := fun k hk => Function.update_of_ne hk ..
  have hclaimed : ∀ k, ∀ r ∈ (s.move run r').runs k, r.claimed = true → r ∈ s.runs k := by
    intro k r hr hrc
    by_cases hk : k = run
    · rw [hk, hself] at hr
      rw [(hafter r hr).1] at hrc
      cases hrc
    · rwa [hother k hk] at hr
  refine ⟨fun k r hr => ?_, fun k l r hr q hq hrc hqc hsame => ?_, fun k r hr row hrow => ?_, fun j hfree row hrow => ?_,
    h.known⟩
  · by_cases hk : k = run
    · rw [hk, hself] at hr
      exact (hafter r hr).2
    · rw [hother k hk] at hr
      exact h.there k r hr
  · exact h.alone k l r (hclaimed k r hr hrc) q (hclaimed l q hq hqc) hrc hqc hsame
  · cases r with
    | loaded _ => trivial
    | attempting _ _ | created _ _ | pushing _ | failing _ => exact h.fits k _ (hclaimed k _ hr rfl) row hrow
  · refine h.rests j (fun k r hr hrc => ?_) row hrow
    by_cases hk : k = run
    · subst hk
      rw [hbefore r hr] at hrc
      cases hrc
    · exact hfree k r ((hother k hk).symm ▸ hr) hrc

theorem read_inv (h : Inv s) (hfree : s.runs run = none) (issueId : Uuid) : Inv (s.read cfg run issueId) := by
  unfold read
  split
  · exact h
  · rename_i issue hissue
    split
    · exact h
    · split
      · exact h
      · split
        · exact h
        · refine h.standBy (fun r hr => ?_) fun q hq => ?_
          · rw [hfree] at hr
            cases hr
          · cases hq
            exact ⟨rfl, by rw [SyncRun.issueId, hissue]; rfl⟩

theorem claim_inv (h : Inv s) (hloaded : s.runs run = some (.loaded i))
    (halone : ∀ row ∈ s.db.issues.findOne i,
      row.jiraSyncStatus ≠ .pending ∧ row.jiraIssueKey = none ∧ s.ticketsOf i = []) :
    Inv { s.move run (some (.attempting i 1)) with db := JiraListener.update s.clock i none .pending s.db } := by
  obtain ⟨row, hrow⟩ := Option.isSome_iff_exists.mp (h.there run _ hloaded)
  obtain ⟨hpending, hkey, hnone⟩ := halone row hrow
  have hkeyless : row.jiraIssueKey.isSome ≠ true := by simp [hkey]
  have hothers : ∀ k, ∀ r ∈ s.runs k, r.claimed = true → r.issueId ≠ i := by
    rintro k r hr hclaimed rfl
    have hfits := h.fits k r hr row hrow
    cases r with
    | loaded _ => cases hclaimed
    | attempting _ _ | created _ _ => exact hpending hfits.1
    | pushing _ => exact hkeyless hfits.2.1
    | failing _ =>
      obtain ⟨⟨hstill, _⟩ | ⟨_, hsome⟩, _⟩ := hfits
      · exact hpending hstill
      · exact hkeyless hsome
  refine h.handover (i := i) rfl ⟨_, hloaded, rfl⟩ (fun q hq => by cases hq; rfl) (fun k _ => hothers k) (fun j hj => ?_)
    ?_ (fun _ _ => rfl) (fun q hq row' hrow' => ?_) fun hfree => ?_
  · exact (findOne_update j).trans (if_neg hj)
  · simp only [findOne_update, if_true, Option.isSome_map]
  · cases hq
    rw [findOne_update, if_pos rfl, show s.db.issues.findOne i = some row from hrow] at hrow'
    cases hrow'
    exact ⟨rfl, hkey, hnone⟩
  · cases hfree _ rfl

theorem tickets_append (key : String) (j : Uuid) : (s.tickets ++ [(i, key)]).filter (fun t => t.1 = j) =
    s.ticketsOf j ++ if i = j then [(i, key)] else [] := by
  rw [List.filter_append, ticketsOf]
  congr 1
  by_cases hj : i = j <;> simp [hj]

theorem attempt_inv (h : Inv s) (answer : Option String) : Inv (step cfg s (.attempt run answer)) := by
  simp only [step]
  split
  · rename_i i n key hrun
    refine h.proceed (f := id) hrun rfl rfl (fun q hq => by cases hq; rfl) (fun j => ?_) (fun j hj => ?_)
      (fun row _ hfits q hq => ?_) fun row _ _ hfree => ?_
    · simp only [move, Option.map_id_fun, id, ite_self]
    · apply (tickets_append key j).trans
      rw [if_neg (show i ≠ j from Ne.symm hj), List.append_nil]
    · cases hq
      obtain ⟨hpending, hkey, hnone⟩ := hfits
      refine ⟨hpending, hkey, ?_⟩
      rw [SyncRun.issueId] at hnone ⊢
      simp only [ticketsOf]
      rw [tickets_append, if_pos rfl, hnone]
      rfl
    · cases hfree _ rfl
  · rename_i i n hrun
    refine h.proceed (f := id) hrun rfl rfl (fun q hq => ?_) (fun j => ?_) (fun _ _ => rfl)
      (fun row _ hfits q hq => ?_) fun row _ _ hfree => ?_
    · cases hq
      split <;> rfl
    · simp only [move, Option.map_id_fun, id, ite_self]
    · cases hq
      split
      · exact hfits
      · obtain ⟨hpending, hkey, hnone⟩ := hfits
        refine ⟨.inl ⟨hpending, hkey⟩, ?_⟩
        exact (congrArg List.length hnone).trans_le (Nat.zero_le 1)
    · have hunclaimed := hfree _ rfl
      split at hunclaimed <;> cases hunclaimed
  · exact h

theorem record_inv (h : Inv s) (fails : Bool) : Inv (step cfg s (.record run fails)) := by
  simp only [step]
  split
  · rename_i i key hrun
    split
    · refine h.proceed (f := id) hrun rfl rfl (fun q hq => by cases hq; rfl) (fun j => ?_) (fun _ _ => rfl)
        (fun row _ hfits q hq => ?_) fun row _ _ hfree => ?_
      · simp only [move, Option.map_id_fun, id, ite_self]
      · cases hq
        exact ⟨.inl ⟨hfits.1, hfits.2.1⟩, hfits.2.2⟩
      · cases hfree _ rfl
    · refine h.proceed hrun rfl rfl (fun q hq => by cases hq; rfl) (fun j => findOne_update j) (fun _ _ => rfl)
        (fun row _ hfits q hq => ?_) fun row _ _ hfree => ?_
      · cases hq
        exact ⟨rfl, rfl, hfits.2.2⟩
      · cases hfree _ rfl
  · exact h

theorem push_inv (h : Inv s) (throws : Bool) : Inv (step cfg s (.push run throws)) := by
  simp only [step]
  split
  · rename_i i hrun
    refine h.proceed (f := id) hrun rfl rfl (fun q hq => ?_) (fun j => ?_) (fun _ _ => rfl)
      (fun row _ hfits q hq => ?_) fun row _ hfits _ => ?_
    · cases throws <;> cases hq
      rfl
    · simp only [move, Option.map_id_fun, id, ite_self]
    · cases throws <;> cases hq
      exact ⟨.inr ⟨hfits.1, hfits.2.1⟩, hfits.2.2⟩
    · exact ⟨iff_of_true hfits.2.1 hfits.1, hfits.2.2⟩
  · exact h

theorem markFailed_inv (h : Inv s) {fails : Bool} (hkeyless : ∀ r ∈ s.runs run, r.gaveUp = true → fails = false →
    ∀ row ∈ s.db.issues.findOne r.issueId, row.jiraIssueKey = none) : Inv (step cfg s (.markFailed run fails)) := by
  simp only [step]
  split
  · rename_i i hrun
    split
    · refine h.proceed (f := id) hrun rfl rfl (fun q hq => by cases hq) (fun j => ?_) (fun _ _ => rfl)
        (fun row _ _ q hq => by cases hq) fun row _ hfits _ => ?_
      · simp only [move, Option.map_id_fun, id, ite_self]
      · obtain ⟨⟨hpending, hkey⟩ | ⟨hsynced, hkey⟩, hone⟩ := hfits
        · exact ⟨by simp [hpending, hkey], hone⟩
        · exact ⟨iff_of_true hkey hsynced, hone⟩
    · rename_i hmarks
      have hnone := hkeyless _ hrun rfl (Bool.eq_false_iff.mpr hmarks)
      refine h.proceed hrun rfl rfl (fun q hq => by cases hq) (fun j => findOne_update j) (fun _ _ => rfl)
        (fun row _ _ q hq => by cases hq) fun row hrow hfits _ => ?_
      exact ⟨by simp [Issue.synced, hnone row hrow], hfits.2⟩
  · exact h

theorem step_inv (s : JiraSync) (a : Action) (h : Inv s) (ha : ClaimsAlone s a) : Inv (step cfg s a) := by
  cases a with
  | tick d => exact ⟨h.there, h.alone, h.fits, h.rests, h.known⟩
  | read run issueId =>
    simp only [step]
    split
    · exact h
    · rename_i hfree
      exact read_inv h (Option.not_isSome_iff_eq_none.mp hfree) issueId
  | claim run fails =>
    simp only [step]
    split
    · rename_i i hrun
      split
      · refine h.standBy (fun r hr => ?_) fun q hq => by cases hq
        rw [hrun] at hr
        cases hr
        rfl
      · rename_i hclaimed
        exact claim_inv h hrun (ha _ hrun rfl (Bool.eq_false_iff.mpr hclaimed))
    · exact h
  | attempt run answer => exact attempt_inv h answer
  | record run fails => exact record_inv h fails
  | push run throws => exact push_inv h throws
  | markFailed run fails => exact markFailed_inv h ha

theorem start_inv {db : Db} {clock : Time} (hdb : KeysMatch db) : Inv (start db clock) where
  there _ _ hr := by cases hr
  alone _ _ _ hr := by cases hr
  fits _ _ hr := by cases hr
  rests _ _ row hrow := ⟨hdb row (Table.mem_of_findOne hrow), Nat.zero_le _⟩
  known _ _ := rfl

theorem Inv.recorded (h : Inv s) : Recorded s :=
  fun i hfree row hrow => (h.rests i (fun k r hr _ => hfree k r hr) row hrow).1

theorem Inv.oneTicket (h : Inv s) : OneTicket s := by
  intro i
  cases hrow : s.db.issues.findOne i with
  | none => simp [h.known i hrow]
  | some row =>
    by_cases hbusy : ∃ k, ∃ r ∈ s.runs k, r.claimed = true ∧ r.issueId = i
    · obtain ⟨k, r, hr, hclaimed, rfl⟩ := hbusy
      have hfits := h.fits k r hr row hrow
      cases r with
      | loaded _ => cases hclaimed
      | attempting _ _ => simp [hfits.2.2]
      | created _ _ | pushing _ => exact hfits.2.2
      | failing _ => exact hfits.2
    · refine (h.rests i (fun k r hr hclaimed hi => hbusy ⟨k, r, hr, hclaimed, hi⟩) row hrow).2

section Alone

/-- What a run does once it has claimed its issue: its calls fail as `env` says, and Jira answers `created`
after so many failures. -/
def afterClaim (env : Env) (retries : ℕ) (created : Option String) : List Action :=
  List.replicate retries (.attempt 0 none) ++
    [.attempt 0 created, .record 0 (env.statement 1), .push 0 (env.statement 3), .markFailed 0 (env.statement 2)]

def alone (env : Env) (issueId : Uuid) (retries : ℕ) (created : Option String) : List Action :=
  .read 0 issueId :: .claim 0 (env.statement 0) :: afterClaim env retries created

variable {env : Env} {db : Db} {retries : ℕ} {created : Option String}

theorem exec_idle (h : s.runs 0 = none) : exec (step cfg) s (afterClaim env retries created) = s := by
  have hretries : exec (step cfg) s (List.replicate retries (.attempt 0 none)) = s := by
    induction retries with
    | zero => rfl
    | succ k ih =>
      have hretry : step cfg s (.attempt 0 none) = s := by simp [step, h]
      rw [List.replicate_succ, exec_cons, hretry, ih]
  rw [afterClaim, exec_append, hretries]
  simp [step, h]

theorem exec_retries {n : ℕ} (hs : s.runs 0 = some (.attempting i n)) (h : n + retries ≤ maxAttempts) :
    exec (step cfg) s (List.replicate retries (.attempt 0 none)) = s.move 0 (some (.attempting i (n + retries))) := by
  induction retries generalizing s n with
  | zero =>
    rw [Nat.add_zero, ← hs]
    simp [move]
  | succ k ih =>
    have hlt : n < maxAttempts := by omega
    have hretry : step cfg s (.attempt 0 none) = s.move 0 (some (.attempting i (n + 1))) := by simp [step, hs, hlt]
    have hnext : (s.move 0 (some (.attempting i (n + 1)))).runs 0 = some (.attempting i (n + 1)) := by simp [move]
    have hsum : n + 1 + k = n + (k + 1) := by omega
    rw [List.replicate_succ, exec_cons, hretry, ih hnext (by omega), hsum]
    simp only [move, Function.update_idem]

theorem exec_claimed (hs : s.runs 0 = some (.attempting i 1)) (hnow : s.clock = env.now)
    (hretries : retries < maxAttempts) :
    (created = none → retries + 1 = maxAttempts) → (exec (step cfg) s (afterClaim env retries created)).db =
      match created with
      | none => JiraListener.markFailed env i s.db
      | some key =>
        if env.statement 1 then JiraListener.markFailed env i s.db
        else
          let recorded := JiraListener.update env.now i (some key) .synced s.db
          if env.statement 3 then JiraListener.markFailed env i recorded else recorded := by
  intro hgaveUp
  rw [afterClaim, exec_append, exec_retries hs (by omega)]
  cases created with
  | none =>
    have hlast : ¬ 1 + retries < maxAttempts := by
      have hall := hgaveUp rfl
      omega
    cases hfails : env.statement 2 <;> simp [step, move, hlast, JiraListener.markFailed, hfails, hnow]
  | some key =>
    cases hrecord : env.statement 1 <;> cases hpush : env.statement 3 <;> cases hfails : env.statement 2 <;>
      simp [step, move, JiraListener.markFailed, hfails, hnow]

theorem exec_alone (issueId : Uuid) (hread : env.read = false) (hretries : retries < maxAttempts)
    (hgaveUp : created = none → retries + 1 = maxAttempts) :
    (exec (step cfg) (start db env.now) (alone env issueId retries created)).db =
      JiraListener.onIssueCreated cfg env issueId created db := by
  have hskipped : (exec (step cfg) (start db env.now)
      (.claim 0 (env.statement 0) :: afterClaim env retries created)).db = db := by
    have hidle : step cfg (start db env.now) (.claim 0 (env.statement 0)) = start db env.now := rfl
    rw [exec_cons, hidle, exec_idle rfl]
    rfl
  have hread' : step cfg (start db env.now) (.read 0 issueId) = (start db env.now).read cfg 0 issueId := rfl
  rw [alone, exec_cons, hread']
  unfold read JiraListener.onIssueCreated
  rw [hread, if_neg Bool.false_ne_true]
  have hdb : (start db env.now).db = db := rfl
  have hclock : (start db env.now).clock = env.now := rfl
  rw [hdb, hclock]
  cases db.issues.findOne issueId with
  | none => exact hskipped
  | some issue =>
    dsimp only
    by_cases hdisabled : cfg.jiraEnabled issue.platform = false
    · rw [if_pos hdisabled, if_pos hdisabled]
      exact hskipped
    rw [if_neg hdisabled, if_neg hdisabled]
    by_cases hsynced : issue.jiraIssueKey.any (fun key => key ≠ "") = true ∨ issue.jiraSyncStatus = .synced
    · rw [if_pos hsynced, if_pos hsynced]
      exact hskipped
    rw [if_neg hsynced, if_neg hsynced]
    by_cases hpending : issue.jiraSyncStatus = .pending ∧ JiraListener.isPendingClaimStale env.now issue = false
    · rw [if_pos hpending, if_pos hpending]
      exact hskipped
    rw [if_neg hpending, if_neg hpending, exec_cons]
    cases hclaim : env.statement 0 with
    | true =>
      rw [exec_idle (by simp [step, move])]
      simp [step, move, start]
    | false =>
      rw [exec_claimed (i := issueId) (by simp [step, move, start]) (by simp [step, move, start]) hretries hgaveUp]
      cases created <;> simp [step, move, start]

end Alone

theorem always_oneTicket_of_claimsAlone {db : Db} {clock : Time} {as : List Action} (hdb : KeysMatch db)
    (h : EveryStep (step cfg) ClaimsAlone (start db clock) as) :
    Always (step cfg) (fun s => OneTicket s ∧ Recorded s) (start db clock) as :=
  (always_of_everyStep step_inv (start_inv hdb) h).mono fun _ hs => ⟨hs.oneTicket, hs.recorded⟩

end JiraSync

namespace Sample

def unsynced : Db :=
  { Db.empty with
    issues := ⟨[ReporterService.newIssue 0 context ⟨"It does not load", none⟩ "reporter" ⟨"A", "reporter", "CBS-1"⟩],
      by decide⟩ }

def syncRun (run : ℕ) (key : String) : List JiraSync.Action :=
  [.read run "A", .claim run false, .attempt run none, .attempt run (some key), .record run false, .push run false]

end Sample

namespace JiraSync

theorem always_oneTicket_of_claimsAlone_inTurn :
    Always (step Sample.config) (fun s => OneTicket s ∧ Recorded s) (start Sample.unsynced 0)
      (Sample.syncRun 0 "SUP-1" ++ Sample.syncRun 1 "SUP-2") :=
  always_oneTicket_of_claimsAlone (by decide) (by decide)

def readTwice : List Action :=
  [.read 0 "A", .read 1 "A", .claim 0 false, .claim 1 false, .attempt 0 (some "SUP-1"), .attempt 1 (some "SUP-2")]

theorem two_tickets :
    ¬ ∀ (cfg : Config) (db : Db) (clock : Time) (as : List Action), KeysMatch db →
      EveryStep (step cfg) FindsFresh (start db clock) as →
        Always (step cfg) (fun s => OneTicket s ∧ Recorded s) (start db clock) as := by
  intro h
  have hone := (h Sample.config Sample.unsynced 0 readTwice (by decide) (by decide)).final.1 "A"
  revert hone
  decide

/-- `syncAttachments` fails after the key is recorded. -/
example : ((exec (step Sample.config) (start Sample.unsynced 0)
    [.read 0 "A", .claim 0 false, .attempt 0 (some "SUP-1"), .record 0 false, .push 0 true, .markFailed 0 false]
    ).db.issues.findOne "A").map (fun row => (row.jiraIssueKey, row.jiraSyncStatus)) = some (some "SUP-1", .failed) := by
  decide

end JiraSync

end Cimp
