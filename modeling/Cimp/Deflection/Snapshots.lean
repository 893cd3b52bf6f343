import Cimp.Deflection.Similar
import Cimp.Lib.Versions

namespace Cimp

open Execution Versions

structure IndexedIssue (ts : TextSearch) where
  issue : Issue
  searchVector : Option ts.Vector

/-- The trigger of a statement: it fires, and its `UPDATE` starts by taking a snapshot of the comments
before it goes for the row of the issue. -/
inductive Firing
  | idle
  | fired (issueId : Uuid)
  | reading (issueId : Uuid) (bodies : List String)
deriving DecidableEq

namespace Firing

def on : Firing → Option Uuid
  | .idle => none
  | .fired issueId => some issueId
  | .reading issueId _ => some issueId

def snapshot : Firing → Option (Uuid × List String)
  | .reading issueId bodies => some (issueId, bodies)
  | _ => none

end Firing

/-- Issues and comments under transactions, which are numbered. `heap` lists the comments ever inserted. -/
structure SearchStore (ts : TextSearch) where
  issues : Uuid → Cell ℕ (IndexedIssue ts)
  comments : Uuid → Cell ℕ Comment
  heap : List Uuid
  firing : ℕ → Firing

namespace SearchStore

variable {ts : TextSearch}

/-- A statement that would wait for a row lock is not yet executed. -/
inductive Action
  | insertComment (tx : ℕ) (c : Comment)
  | updateBody (tx : ℕ) (id : Uuid) (body : String)
  | deleteComment (tx : ℕ) (id : Uuid)
  | updateDescription (tx : ℕ) (id : Uuid) (description : String)
  | touch (tx : ℕ) (now : Time) (id : Uuid)
  | snapshot (tx : ℕ)
  | refresh (tx : ℕ)
  | commit (tx : ℕ)
  | rollback (tx : ℕ)

def start (ts : TextSearch) (db : Db) : SearchStore ts where
  issues := fun id => ⟨(db.issues.findOne id).map fun row => ⟨row, some (Indexed.vectorOf ts db row)⟩, none⟩
  comments := fun id => ⟨db.comments.findOne id, none⟩
  heap := db.comments.rows.map Comment.id
  firing := fun _ => .idle

def bodiesSeen (see : Cell ℕ Comment → Option Comment) (s : SearchStore ts) (issueId : Uuid) : List String :=
  s.heap.filterMap fun id => ((see (s.comments id)).filter fun c => c.issue = issueId).map Comment.body

def visibleBodies (s : SearchStore ts) (tx : ℕ) : Uuid → List String := s.bodiesSeen (Cell.visible tx)

def storedBodies (s : SearchStore ts) : Uuid → List String := s.bodiesSeen Cell.stored

def writeIssue (s : SearchStore ts) (tx : ℕ) (id : Uuid) (row : IndexedIssue ts) : SearchStore ts :=
  { s with issues := Function.update s.issues id ((s.issues id).write tx (some row)) }

def writeComment (s : SearchStore ts) (tx : ℕ) (id : Uuid) (row : Option Comment) : SearchStore ts :=
  { s with comments := Function.update s.comments id ((s.comments id).write tx row) }

def fire (s : SearchStore ts) (tx : ℕ) (f : Firing) : SearchStore ts :=
  { s with firing := Function.update s.firing tx f }

def insertComment (s : SearchStore ts) (tx : ℕ) (c : Comment) : SearchStore ts :=
  if c.id ∈ s.heap ∨ ((s.issues c.issue).visible tx).isNone then s
  else ({ s with
    comments := Function.update s.comments c.id ⟨none, some (tx, some c)⟩
    heap := s.heap ++ [c.id] }).fire tx (.fired c.issue)

def changeComment (s : SearchStore ts) (tx : ℕ) (id : Uuid) (f : Comment → Option Comment) : SearchStore ts :=
  if (s.comments id).free tx = false then s
  else match (s.comments id).visible tx with
    | none => s
    | some c => (s.writeComment tx id (f c)).fire tx (.fired c.issue)

def changeIssue (s : SearchStore ts) (tx : ℕ) (id : Uuid) (f : Issue → Issue) (fires : Bool) : SearchStore ts :=
  if (s.issues id).free tx = false then s
  else match (s.issues id).visible tx with
    | none => s
    | some row => (s.writeIssue tx id { row with issue := f row.issue }).fire tx (if fires then .fired id else .idle)

def refresh (s : SearchStore ts) (tx : ℕ) : SearchStore ts :=
  match s.firing tx with
  | .reading id bodies =>
    if (s.issues id).free tx = false then s
    else match (s.issues id).visible tx with
      | none => s.fire tx .idle
      -- the row is the one the lock was got on, the comments are those of the snapshot
      | some row =>
        (s.writeIssue tx id
          { row with searchVector := some (ts.weighed row.issue.description (stringAgg bodies)) }).fire tx .idle
  | _ => s

def commit (s : SearchStore ts) (tx : ℕ) : SearchStore ts :=
  { s with issues := fun id => (s.issues id).commit tx, comments := fun id => (s.comments id).commit tx }

def rollback (s : SearchStore ts) (tx : ℕ) : SearchStore ts where
  issues := fun id => (s.issues id).rollback tx
  comments := fun id => (s.comments id).rollback tx
  heap := s.heap
  firing := Function.update s.firing tx .idle

def step (s : SearchStore ts) : Action → SearchStore ts
  | .insertComment tx c => if s.firing tx = .idle then s.insertComment tx c else s
  | .updateBody tx id body =>
    if s.firing tx = .idle then s.changeComment tx id fun c => some (Indexed.rewritten body c) else s
  | .deleteComment tx id => if s.firing tx = .idle then s.changeComment tx id fun _ => none else s
  | .updateDescription tx id description =>
    if s.firing tx = .idle then s.changeIssue tx id (Indexed.described description) true else s
  | .touch tx now id => if s.firing tx = .idle then s.changeIssue tx id (Issue.touched now) false else s
  | .snapshot tx =>
    match s.firing tx with
    | .fired id => s.fire tx (.reading id (s.visibleBodies tx id))
    | _ => s
  | .refresh tx => s.refresh tx
  | .commit tx => if s.firing tx = .idle then s.commit tx else s
  | .rollback tx => s.rollback tx

def Searchable (s : SearchStore ts) : Prop := ∀ i row, (s.issues i).stored = some row →
  row.searchVector = some (ts.weighed row.issue.description (stringAgg (s.storedBodies i)))

def Settled (s : SearchStore ts) (i : Uuid) : Prop :=
  (s.issues i).pending = none ∧ ∀ id ∈ s.heap, (s.comments id).pending = none

/-- When a trigger gets the row it was waiting for, no comment of the issue has been committed since its snapshot. -/
def ReadsCurrent (s : SearchStore ts) : Action → Prop
  | .refresh tx => ∀ p ∈ (s.firing tx).snapshot, (s.issues p.1).free tx = true → p.2 = s.visibleBodies tx p.1
  | _ => True

instance decidableReadsCurrent (s : SearchStore ts) : (a : Action) → Decidable (ReadsCurrent s a)
  | .insertComment _ _ | .updateBody _ _ _ | .deleteComment _ _ | .updateDescription _ _ _ | .touch _ _ _
  | .snapshot _ | .commit _ | .rollback _ => isTrue trivial
  | .refresh tx => inferInstanceAs (Decidable (∀ p ∈ (s.firing tx).snapshot,
      (s.issues p.1).free tx = true → p.2 = s.visibleBodies tx p.1))

variable {s : SearchStore ts} {tx k : ℕ} {i id : Uuid}

def Absent (s : SearchStore ts) (i : Uuid) : Prop := (s.issues i).stored = none ∧ (s.issues i).pending = none

/-- A transaction that changed a comment has the issue's row, or its trigger is still after it. -/
structure Inv (s : SearchStore ts) : Prop where
  stored : Searchable s
  fresh : ∀ k i row, (s.issues i).pending = some (k, some row) → (s.firing k).on ≠ some i →
    row.searchVector = some (ts.weighed row.issue.description (stringAgg (s.visibleBodies k i)))
  locked : ∀ k id c, (s.comments id).Held k → ((s.comments id).visible k = some c ∨ (s.comments id).stored = some c) →
    (s.firing k).on = some c.issue ∨ (s.issues c.issue).Held k ∨ s.Absent c.issue

theorem bodiesSeen_congr {see see' : Cell ℕ Comment → Option Comment} {t : SearchStore ts} (hheap : t.heap = s.heap)
    (h : ∀ id ∈ s.heap, ((see' (t.comments id)).filter fun c => c.issue = i) =
      (see (s.comments id)).filter fun c => c.issue = i) : t.bodiesSeen see' i = s.bodiesSeen see i := by
  unfold bodiesSeen
  rw [hheap]
  exact List.filterMap_congr fun id hid => by rw [h id hid]

theorem filter_hidden {o : Option Comment} (h : ∀ c ∈ o, c.issue ≠ i) : (o.filter fun c => c.issue = i) = none := by
  rw [Option.filter_eq_none_iff]
  intro c hc hissue
  exact h c hc (of_decide_eq_true hissue)

theorem Inv.hidden (h : Inv s) (hidle : (s.firing k).on ≠ some i) (hheld : ¬ (s.issues i).Held k)
    (hthere : ¬ s.Absent i) {id : Uuid} (hcell : (s.comments id).Held k) :
    (∀ c ∈ (s.comments id).visible k, c.issue ≠ i) ∧ ∀ c ∈ (s.comments id).stored, c.issue ≠ i := by
  have hboth : ∀ c, (s.comments id).visible k = some c ∨ (s.comments id).stored = some c → c.issue ≠ i := by
    rintro c hc rfl
    rcases h.locked k id c hcell hc with hon | hrow | habsent
    · exact hidle hon
    · exact hheld hrow
    · exact hthere habsent
  exact ⟨fun c hc => hboth c (.inl hc), fun c hc => hboth c (.inr hc)⟩

theorem Inv.visibleBodies_eq (h : Inv s) (hidle : (s.firing k).on ≠ some i) (hheld : ¬ (s.issues i).Held k)
    (hthere : ¬ s.Absent i) : s.visibleBodies k i = s.storedBodies i := by
  apply bodiesSeen_congr rfl
  intro id _
  by_cases hcell : (s.comments id).Held k
  · obtain ⟨hvisible, hstored⟩ := h.hidden hidle hheld hthere hcell
    rw [filter_hidden hvisible, filter_hidden hstored]
  · rw [Cell.visible_of_not_held hcell]

theorem fire_inv {f : Firing} (h : Inv s) (hon : f.on = (s.firing k).on) : Inv (s.fire k f) := by
  have hsame : ∀ l, ((s.fire k f).firing l).on = (s.firing l).on := by
    intro l
    by_cases hl : l = k
    · subst hl
      simp [fire, hon]
    · simp [fire, hl]
  constructor
  · exact h.stored
  · intro l i row hrow hidle
    rw [hsame] at hidle
    exact h.fresh l i row hrow hidle
  · intro l id c hheld hc
    rw [hsame]
    exact h.locked l id c hheld hc

theorem storedBodies_start (db : Db) (i : Uuid) : (start ts db).storedBodies i = bodies db i := by
  have hrows : (db.comments.rows.map Comment.id).filterMap db.comments.findOne = db.comments.rows := by
    rw [List.filterMap_map]
    have hfind : ∀ c ∈ db.comments.rows, (db.comments.findOne ∘ Comment.id) c = some c :=
      fun c hc => Table.findOne_of_mem hc
    rw [List.filterMap_congr hfind, List.filterMap_some]
  simp only [storedBodies, bodiesSeen, start, bodies, ← List.map_filterMap, ← List.filter_filterMap]
  exact congrArg (fun rows => (rows.filter fun c => decide (c.issue = i)).map Comment.body) hrows

theorem start_inv (db : Db) : Inv (start ts db) := by
  constructor
  · intro i row hrow
    obtain ⟨issue, hissue, rfl⟩ := Option.map_eq_some_iff.mp hrow
    have hbodies : (start ts db).storedBodies i = bodies db issue.id := by
      rw [Table.findOne_key hissue]
      exact storedBodies_start db i
    rw [hbodies]
    rfl
  · intro k i row hrow
    cases hrow
  · intro k id c hheld
    obtain ⟨_, hpending⟩ := hheld
    cases hpending

theorem not_on_idle (hidle : s.firing tx = .idle) (i : Uuid) : (s.firing tx).on ≠ some i := by
  rw [hidle]
  intro h
  cases h

theorem not_held_of_pending {β : Type} {c : Cell ℕ β} {v : Option β} (h : c.pending = some (k, v)) (hne : k ≠ tx) :
    ¬ c.Held tx := by
  rintro ⟨w, hw⟩
  rw [h] at hw
  cases hw
  exact hne rfl

theorem storedBodies_commit (tx : ℕ) (i : Uuid) : (s.commit tx).storedBodies i = s.visibleBodies tx i := by
  refine bodiesSeen_congr rfl fun id _ => ?_
  simp only [commit, Cell.stored_commit]

theorem Inv.visibleBodies_commit (h : Inv s) (hidle : (s.firing tx).on ≠ some i) (hheld : ¬ (s.issues i).Held tx)
    (hthere : ¬ s.Absent i) (hne : k ≠ tx) : (s.commit tx).visibleBodies k i = s.visibleBodies k i := by
  refine bodiesSeen_congr rfl fun id _ => ?_
  simp only [commit]
  by_cases hcell : (s.comments id).Held tx
  · obtain ⟨hvisible, hstored⟩ := h.hidden hidle hheld hthere hcell
    obtain ⟨v, hv⟩ := hcell
    have hother : ¬ tx = k := fun he => hne he.symm
    simp only [Cell.commit, Cell.visible, hv, if_true, if_neg hother] at hvisible ⊢
    rw [filter_hidden hvisible, filter_hidden hstored]
  · rw [Cell.commit_of_not_held hcell]

theorem commit_inv (h : Inv s) (hidle : s.firing tx = .idle) : Inv (s.commit tx) := by
  constructor
  · intro i row hrow
    simp only [commit, Cell.stored_commit] at hrow
    rw [storedBodies_commit]
    by_cases hheld : (s.issues i).Held tx
    · obtain ⟨v, hv⟩ := hheld
      simp only [Cell.visible, hv, if_true] at hrow
      exact h.fresh tx i row (by rw [hv, hrow]) (not_on_idle hidle i)
    · rw [Cell.visible_of_not_held hheld] at hrow
      rw [h.visibleBodies_eq (not_on_idle hidle i) hheld fun habsent => by rw [habsent.1] at hrow; cases hrow]
      exact h.stored i row hrow
  · intro l i row hrow hl
    obtain ⟨hbefore, hne⟩ := Cell.pending_commit.mp hrow
    have hthere : ¬ s.Absent i := fun habsent => by rw [habsent.2] at hbefore; cases hbefore
    rw [h.visibleBodies_commit (not_on_idle hidle i) (not_held_of_pending hbefore hne) hthere hne]
    exact h.fresh l i row hbefore hl
  · intro l id c hheld hc
    obtain ⟨v, hv⟩ := hheld
    obtain ⟨hbefore, hne⟩ := Cell.pending_commit.mp hv
    simp only [commit, Cell.commit_of_not_held (not_held_of_pending hbefore hne)] at hc
    rcases h.locked l id c ⟨v, hbefore⟩ hc with hfiring | ⟨w, hw⟩ | ⟨hstored, hpending⟩
    · exact .inl hfiring
    · exact .inr (.inl ⟨w, Cell.pending_commit.mpr ⟨hw, hne⟩⟩)
    · refine .inr (.inr ?_)
      simp [Absent, commit, Cell.commit, hpending, hstored]

theorem storedBodies_rollback (tx : ℕ) (i : Uuid) : (s.rollback tx).storedBodies i = s.storedBodies i := by
  refine bodiesSeen_congr rfl fun id _ => ?_
  simp only [rollback, Cell.stored_rollback]

theorem visibleBodies_rollback (hne : k ≠ tx) (i : Uuid) :
    (s.rollback tx).visibleBodies k i = s.visibleBodies k i := by
  refine bodiesSeen_congr rfl fun id _ => ?_
  simp only [rollback, Cell.visible_rollback hne]

theorem rollback_inv (h : Inv s) : Inv (s.rollback tx) := by
  have hfiring : ∀ l, l ≠ tx → (s.rollback tx).firing l = s.firing l := fun l hl => Function.update_of_ne hl ..
  refine ⟨fun i row hrow => ?_, fun l i row hrow hl => ?_, fun l id c hheld hc => ?_⟩
  · simp only [rollback, Cell.stored_rollback] at hrow
    rw [storedBodies_rollback]
    exact h.stored i row hrow
  · obtain ⟨hbefore, hne⟩ := Cell.pending_rollback.mp hrow
    rw [hfiring l hne] at hl
    rw [visibleBodies_rollback hne]
    exact h.fresh l i row hbefore hl
  · obtain ⟨v, hv⟩ := hheld
    obtain ⟨hbefore, hne⟩ := Cell.pending_rollback.mp hv
    rw [hfiring l hne]
    simp only [rollback, Cell.rollback_of_not_held (not_held_of_pending hbefore hne)] at hc
    rcases h.locked l id c ⟨v, hbefore⟩ hc with hon | ⟨w, hw⟩ | ⟨hstored, hpending⟩
    · exact .inl hon
    · exact .inr (.inl ⟨w, Cell.pending_rollback.mpr ⟨hw, hne⟩⟩)
    · refine .inr (.inr ?_)
      simp [Absent, rollback, Cell.rollback, hpending, hstored]

theorem on_fire {f : Firing} (hk : k ≠ tx) : ((s.fire tx f).firing k).on = (s.firing k).on :=
  congrArg Firing.on (Function.update_of_ne hk ..)

theorem on_fire_self (f : Firing) : ((s.fire tx f).firing tx).on = f.on :=
  congrArg Firing.on (Function.update_self ..)

theorem writeIssue_inv {row old : IndexedIssue ts} {f : Firing} (h : Inv s) (hfree : (s.issues id).free tx = true)
    (hold : (s.issues id).visible tx = some old) (hon : ∀ i, (s.firing tx).on = some i → i = id)
    (hfresh : f.on ≠ some id →
      row.searchVector = some (ts.weighed row.issue.description (stringAgg (s.visibleBodies tx id)))) :
    Inv ((s.writeIssue tx id row).fire tx f) := by
  have hself : ((s.writeIssue tx id row).fire tx f).issues id = (s.issues id).write tx (some row) :=
    Function.update_self ..
  have hother : ∀ i, i ≠ id → ((s.writeIssue tx id row).fire tx f).issues i = s.issues i :=
    fun i hi => Function.update_of_ne hi ..
  constructor
  · intro i r hr
    by_cases hi : i = id
    · subst hi
      rw [hself, Cell.stored_write] at hr
      exact h.stored i r hr
    · rw [hother i hi] at hr
      exact h.stored i r hr
  · intro l i r hr hl
    by_cases hi : i = id
    · subst hi
      rw [hself] at hr
      cases hr
      rw [on_fire_self] at hl
      exact hfresh hl
    · rw [hother i hi] at hr
      apply h.fresh l i r hr
      by_cases hlt : l = tx
      · subst hlt
        exact fun honi => hi (hon i honi)
      · rw [on_fire hlt] at hl
        exact hl
  · intro l id' c hheld hc
    by_cases hissue : c.issue = id
    · by_cases hlt : l = tx
      · subst hlt
        refine .inr (.inl ?_)
        rw [hissue, hself]
        exact Cell.held_write.mpr rfl
      · rw [on_fire hlt]
        rcases h.locked l id' c hheld hc with honl | ⟨v, hv⟩ | ⟨hstored, hpending⟩
        · exact .inl honl
        · rw [hissue] at hv
          rw [Cell.free, hv, Option.all_some, decide_eq_true_eq] at hfree
          exact absurd hfree hlt
        · rw [hissue] at hstored hpending
          rw [Cell.visible, hpending, hstored] at hold
          cases hold
    · have hkept := h.locked l id' c hheld hc
      rw [Absent, hother _ hissue]
      by_cases hlt : l = tx
      · subst hlt
        rcases hkept with honl | hrow | habsent
        · exact absurd (hon _ honl) hissue
        · exact .inr (.inl hrow)
        · exact .inr (.inr habsent)
      · rw [on_fire hlt]
        exact hkept

theorem changeIssue_inv {f : Issue → Issue} {fires : Bool} (h : Inv s) (hidle : s.firing tx = .idle)
    (hf : fires = false → ∀ r, (f r).description = r.description) : Inv (s.changeIssue tx id f fires) := by
  unfold changeIssue
  split
  · exact h
  · rename_i hfree
    simp only [Bool.not_eq_false] at hfree
    split
    · exact h
    · rename_i old hold
      apply writeIssue_inv h hfree hold (fun i hi => absurd hi (not_on_idle hidle i))
      intro hquiet
      cases hfires : fires with
      | true =>
        rw [hfires] at hquiet
        exact absurd rfl hquiet
      | false =>
        rw [hf hfires]
        by_cases hheld : (s.issues id).Held tx
        · obtain ⟨v, hv⟩ := hheld
          simp only [Cell.visible, hv, if_true] at hold
          exact h.fresh tx id old (by rw [hv, hold]) (not_on_idle hidle id)
        · rw [Cell.visible_of_not_held hheld] at hold
          rw [h.visibleBodies_eq (not_on_idle hidle id) hheld fun habsent => by rw [habsent.1] at hold; cases hold]
          exact h.stored id old hold

theorem fire_idle_inv (h : Inv s) (hfree : (s.issues id).free tx = true) (hnone : (s.issues id).visible tx = none)
    (hon : ∀ i, (s.firing tx).on = some i → i = id) : Inv (s.fire tx .idle) := by
  constructor
  · exact h.stored
  · intro l i row hrow hl
    apply h.fresh l i row hrow
    by_cases hlt : l = tx
    · subst hlt
      intro hi
      obtain rfl := hon i hi
      rw [Cell.visible, show (s.issues i).pending = some (l, some row) from hrow] at hnone
      simp at hnone
    · rw [on_fire hlt] at hl
      exact hl
  · intro l id' c hheld hc
    have hkept := h.locked l id' c hheld hc
    by_cases hlt : l = tx
    · subst hlt
      rcases hkept with honl | hrow | habsent
      · rw [hon _ honl]
        by_cases hrow : (s.issues id).Held l
        · exact .inr (.inl hrow)
        · rw [Cell.visible_of_not_held hrow] at hnone
          exact .inr (.inr ⟨hnone, Cell.pending_of_free hfree hrow⟩)
      · exact .inr (.inl hrow)
      · exact .inr (.inr habsent)
    · rw [on_fire hlt]
      exact hkept

theorem refresh_inv (h : Inv s) (hcurrent : ReadsCurrent s (.refresh tx)) : Inv (s.refresh tx) := by
  unfold refresh
  cases hfiring : s.firing tx with
  | idle => exact h
  | fired i => exact h
  | reading i bodies =>
    have hon : ∀ j, (s.firing tx).on = some j → j = i := by
      intro j hj
      rw [hfiring] at hj
      exact (Option.some.inj hj).symm
    dsimp only
    split
    · exact h
    · rename_i hfree
      simp only [Bool.not_eq_false] at hfree
      split
      · rename_i hnone
        exact fire_idle_inv h hfree hnone hon
      · rename_i old hold
        have hbodies : bodies = s.visibleBodies tx i := hcurrent (i, bodies) (by rw [hfiring]; rfl) hfree
        exact writeIssue_inv h hfree hold hon fun _ => by rw [hbodies]

theorem comment_inv {t : SearchStore ts} {j : Uuid} (h : Inv s) (hidle : s.firing tx = .idle)
    (hissues : t.issues = s.issues) (hfiring : t.firing = Function.update s.firing tx (.fired j))
    (hstored : ∀ i, t.storedBodies i = s.storedBodies i)
    (hvisible : ∀ k i, (k = tx → j ≠ i) → t.visibleBodies k i = s.visibleBodies k i)
    (hcells : ∀ k id c, (t.comments id).Held k → ((t.comments id).visible k = some c ∨ (t.comments id).stored = some c) →
      k = tx ∧ c.issue = j ∨
        (s.comments id).Held k ∧ ((s.comments id).visible k = some c ∨ (s.comments id).stored = some c)) : Inv t := by
  have hself : (t.firing tx).on = some j := by rw [hfiring, Function.update_self, Firing.on]
  have hother : ∀ k, k ≠ tx → (t.firing k).on = (s.firing k).on := by
    intro k hk
    rw [hfiring, Function.update_of_ne hk]
  constructor
  · intro i row hrow
    rw [hissues] at hrow
    rw [hstored]
    exact h.stored i row hrow
  · intro k i row hrow hk
    rw [hissues] at hrow
    by_cases hkt : k = tx
    · subst hkt
      rw [hself] at hk
      rw [hvisible k i fun _ hi => hk (congrArg some hi)]
      exact h.fresh k i row hrow (not_on_idle hidle i)
    · rw [hother k hkt] at hk
      rw [hvisible k i fun he => absurd he hkt]
      exact h.fresh k i row hrow hk
  · intro k id c hheld hc
    rw [Absent, hissues]
    rcases hcells k id c hheld hc with ⟨rfl, hissue⟩ | ⟨hbefore, hcell⟩
    · exact .inl (hself.trans (congrArg some hissue.symm))
    · have hkept := h.locked k id c hbefore hcell
      by_cases hkt : k = tx
      · subst hkt
        rcases hkept with hon | hrow
        · exact absurd hon (not_on_idle hidle _)
        · exact .inr hrow
      · rw [hother k hkt]
        exact hkept

theorem writeComment_self (v : Option Comment) :
    (s.writeComment tx id v).comments id = (s.comments id).write tx v := Function.update_self ..

theorem writeComment_other {v : Option Comment} {id' : Uuid} (h : id' ≠ id) :
    (s.writeComment tx id v).comments id' = s.comments id' := Function.update_of_ne h ..

theorem storedBodies_writeComment (v : Option Comment) (i : Uuid) :
    (s.writeComment tx id v).storedBodies i = s.storedBodies i := by
  refine bodiesSeen_congr rfl fun id' _ => ?_
  by_cases hid : id' = id
  · subst hid
    rw [writeComment_self, Cell.stored_write]
  · rw [writeComment_other hid]

theorem visibleBodies_writeComment {v : Option Comment} (hfree : (s.comments id).free tx = true)
    (hhidden : k = tx → (∀ c ∈ (s.comments id).visible tx, c.issue ≠ i) ∧ ∀ c ∈ v, c.issue ≠ i) :
    (s.writeComment tx id v).visibleBodies k i = s.visibleBodies k i := by
  refine bodiesSeen_congr rfl fun id' _ => ?_
  by_cases hid : id' = id
  · subst hid
    rw [writeComment_self]
    by_cases hk : k = tx
    · subst hk
      obtain ⟨hold, hnew⟩ := hhidden rfl
      rw [Cell.visible_write_self, filter_hidden hnew, filter_hidden hold]
    · rw [Cell.visible_write_of_ne hfree hk]
  · rw [writeComment_other hid]

theorem changeComment_inv {f : Comment → Option Comment} (h : Inv s) (hidle : s.firing tx = .idle)
    (hf : ∀ c, ∀ c' ∈ f c, c'.issue = c.issue) : Inv (s.changeComment tx id f) := by
  unfold changeComment
  split
  · exact h
  · rename_i hfree
    simp only [Bool.not_eq_false] at hfree
    split
    · exact h
    · rename_i c hvisible
      refine comment_inv h hidle rfl rfl (storedBodies_writeComment (f c)) (fun k i hk => ?_) fun k id' c' hheld hc => ?_
      · refine visibleBodies_writeComment hfree fun hkt => ⟨fun c' hc' => ?_, fun c' hc' => ?_⟩
        · rw [hvisible] at hc'
          cases hc'
          exact hk hkt
        · rw [hf c c' hc']
          exact hk hkt
      · change Cell.Held k ((s.writeComment tx id (f c)).comments id') at hheld
        change Cell.visible k ((s.writeComment tx id (f c)).comments id') = some c' ∨
          ((s.writeComment tx id (f c)).comments id').stored = some c' at hc
        by_cases hid : id' = id
        · subst hid
          rw [writeComment_self] at hheld hc
          obtain rfl := Cell.held_write.mp hheld
          rw [Cell.visible_write_self, Cell.stored_write] at hc
          rcases hc with hnew | hstored
          · exact .inl ⟨rfl, hf c c' hnew⟩
          · by_cases hcell : (s.comments id').Held k
            · exact .inr ⟨hcell, .inr hstored⟩
            · rw [Cell.visible_of_not_held hcell, hstored] at hvisible
              cases hvisible
              exact .inl ⟨rfl, rfl⟩
        · rw [writeComment_other hid] at hheld hc
          exact .inr ⟨hheld, hc⟩

theorem bodiesSeen_insert (tx : ℕ) {see : Cell ℕ Comment → Option Comment} {t : SearchStore ts} {c : Comment}
    (hnew : c.id ∉ s.heap) (hheap : t.heap = s.heap ++ [c.id])
    (hcomments : t.comments = Function.update s.comments c.id ⟨none, some (tx, some c)⟩)
    (hhidden : ∀ d ∈ see ⟨none, some (tx, some c)⟩, d.issue ≠ i) : t.bodiesSeen see i = s.bodiesSeen see i := by
  have hother : ∀ id ∈ s.heap, t.comments id = s.comments id := by
    intro id hid
    have hne : id ≠ c.id := by
      rintro rfl
      exact hnew hid
    rw [hcomments, Function.update_of_ne hne]
  unfold bodiesSeen
  rw [hheap, List.filterMap_append]
  have hlast : [c.id].filterMap (fun id => ((see (t.comments id)).filter fun d => d.issue = i).map Comment.body) = [] := by
    rw [hcomments, List.filterMap_cons_none, List.filterMap_nil]
    rw [Function.update_self, filter_hidden hhidden, Option.map_none]
  rw [hlast, List.append_nil]
  exact List.filterMap_congr fun id hid => by rw [hother id hid]

theorem insertComment_inv {c : Comment} (h : Inv s) (hidle : s.firing tx = .idle) : Inv (s.insertComment tx c) := by
  unfold insertComment
  split
  · exact h
  · rename_i hguard
    push Not at hguard
    refine comment_inv h hidle rfl rfl (fun i => ?_) (fun k i hk => ?_) fun k id c' hheld hc => ?_
    · exact bodiesSeen_insert tx hguard.1 rfl rfl fun d hd => by cases hd
    · apply bodiesSeen_insert tx hguard.1 rfl rfl
      intro d hd
      by_cases hkt : k = tx
      · subst hkt
        rw [show Cell.visible k ⟨none, some (k, some c)⟩ = some c from if_pos rfl] at hd
        cases hd
        exact hk rfl
      · rw [show Cell.visible k ⟨none, some (tx, some c)⟩ = none from if_neg fun he => hkt he.symm] at hd
        cases hd
    · simp only [fire] at hheld hc
      by_cases hid : id = c.id
      · subst hid
        rw [Function.update_self] at hheld hc
        obtain ⟨_, hpending⟩ := hheld
        cases hpending
        rw [show Cell.visible tx ⟨none, some (tx, some c)⟩ = some c from if_pos rfl] at hc
        rcases hc with hnew | hstored
        · cases hnew
          exact .inl ⟨rfl, rfl⟩
        · cases hstored
      · rw [Function.update_of_ne hid] at hheld hc
        exact .inr ⟨hheld, hc⟩

theorem step_inv (a : Action) (h : Inv s) (hcurrent : ReadsCurrent s a) : Inv (step s a) := by
  cases a with
  | insertComment tx c =>
    simp only [step]
    split
    · exact insertComment_inv h ‹_›
    · exact h
  | updateBody tx id body =>
    simp only [step]
    split
    · apply changeComment_inv h ‹_›
      intro c c' hc'
      cases hc'
      rfl
    · exact h
  | deleteComment tx id =>
    simp only [step]
    split
    · apply changeComment_inv h ‹_›
      intro c c' hc'
      cases hc'
    · exact h
  | updateDescription tx id description =>
    simp only [step]
    split
    · apply changeIssue_inv h ‹_›
      intro hfires
      cases hfires
    · exact h
  | touch tx now id =>
    simp only [step]
    split
    · exact changeIssue_inv h ‹_› fun _ _ => rfl
    · exact h
  | snapshot tx =>
    simp only [step]
    split
    · rename_i id hfired
      apply fire_inv h
      rw [hfired]
      rfl
    · exact h
  | refresh tx => exact refresh_inv h hcurrent
  | commit tx =>
    simp only [step]
    split
    · exact commit_inv h ‹_›
    · exact h
  | rollback tx => exact rollback_inv h

/-- The vector covers every committed comment, in every run in which no trigger waits for an issue's
row while a comment of the issue is committed. -/
theorem always_searchable_of_readsCurrent (ts : TextSearch) (db : Db) (as : List Action)
    (h : EveryStep step ReadsCurrent (start ts db) as) : Always step Searchable (start ts db) as :=
  (always_of_everyStep (fun _ a hI hG => step_inv a hI hG) (start_inv db) h).mono fun _ hI => hI.stored

end SearchStore

namespace Sample

def comment (id body : String) : Comment where
  id := id
  issue := "issue"
  author := none
  authorType := .staff
  authorName := none
  body := body
  visibility := .internal
  sourceLocale := none
  translations := []
  createdAt := 0
  editedAt := none

def described : Db :=
  { Db.empty with
    issues := ⟨[ReporterService.newIssue 0 context ⟨"It does not work", none⟩ "asker" ⟨"issue", "asker", "CBS-1"⟩],
      by decide⟩ }

end Sample

namespace SearchStore

def add (tx : ℕ) (id body : String) : List Action :=
  [.insertComment tx (Sample.comment id body), .snapshot tx, .refresh tx]

-- the second transaction is open before the first one commits
def inTurn : List Action :=
  [.insertComment 2 (Sample.comment "c2" "scanner")] ++ add 1 "c1" "printer" ++ [.commit 1, .snapshot 2, .refresh 2, .commit 2]

theorem always_searchable_of_readsCurrent_inTurn :
    Always step Searchable (start Sample.textSearch Sample.described) inTurn :=
  always_searchable_of_readsCurrent Sample.textSearch Sample.described inTurn (by decide)

def atOnce : List Action := add 1 "c1" "printer" ++ add 2 "c2" "scanner" ++ [.commit 1, .refresh 2, .commit 2]

theorem comment_missing_from_vector :
    ¬ ∀ (ts : TextSearch) (db : Db) (as : List Action) (i : Uuid), Settled (exec step (start ts db) as) i →
      ∀ row, ((exec step (start ts db) as).issues i).stored = some row →
        row.searchVector =
          some (ts.weighed row.issue.description (stringAgg ((exec step (start ts db) as).storedBodies i))) := by
  intro h
  have hstored : ∃ row, ((exec step (start Sample.textSearch Sample.described) atOnce).issues "issue").stored = some row :=
    ⟨_, rfl⟩
  obtain ⟨row, hrow⟩ := hstored
  have hcovers := h Sample.textSearch Sample.described atOnce "issue" ⟨rfl, by decide⟩ row hrow
  have hlength : ((exec step (start Sample.textSearch Sample.described) atOnce).issues "issue").stored.map
      (fun row => Option.map (List.length (α := List Char)) row.searchVector) = some (some 5) := by decide
  have hdescription : ((exec step (start Sample.textSearch Sample.described) atOnce).issues "issue").stored.map
      (fun row => row.issue.description) = some "It does not work" := by decide
  have hbodies : (exec step (start Sample.textSearch Sample.described) atOnce).storedBodies "issue" =
      ["printer", "scanner"] := by decide
  rw [hrow, Option.map_some, Option.some.injEq] at hdescription
  rw [hrow, Option.map_some, hcovers, hdescription, hbodies] at hlength
  revert hlength
  decide

end SearchStore

end Cimp
