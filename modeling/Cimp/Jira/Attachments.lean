import Cimp.Jira.Tickets
import Cimp.Scanning.Scan

namespace Cimp

open Execution

/-- `added` are the attachments Jira has accepted. -/
structure AttachmentSync where
  db : Db
  clock : Time
  scans : ℕ → Option ScanRun
  pushes : ℕ → Option PushRun
  added : List Uuid

namespace AttachmentSync

inductive ScanAction
  | scan (verdict : Option ScanStatus)
  | reread (fails : Bool)
  | save (fails : Bool)
deriving DecidableEq

inductive PushAction
  | claim (fails : Bool)
  | readBytes (fails : Bool)
  | addAttachment (accepted : Bool)
  | release (fails : Bool)
deriving DecidableEq

/-- A new run takes a number of its own; `pending`, `sweep` and `files` are the loads of the runs. -/
inductive Action
  | tick (d : ℕ)
  | pending (run : ℕ) (issueId : Uuid)
  | sweep (run : ℕ)
  | scan (run : ℕ) (a : ScanAction)
  | files (run : ℕ) (issueId : Uuid)
  | push (run : ℕ) (a : PushAction)
deriving DecidableEq

def start (db : Db) (clock : Time) : AttachmentSync := ⟨db, clock, fun _ => none, fun _ => none, []⟩

def scanTo (s : AttachmentSync) (run : ℕ) (r : Option ScanRun) : AttachmentSync :=
  { s with scans := Function.update s.scans run r }

def pushTo (s : AttachmentSync) (run : ℕ) (r : Option PushRun) : AttachmentSync :=
  { s with pushes := Function.update s.pushes run r }

def setSynced (id : Uuid) (synced : Bool) (db : Db) : Db :=
  { db with attachments :=
      db.attachments.update id (Attachment.withSynced synced) (Attachment.withSynced_id synced) }

def saveOver (a read : Attachment) (db : Db) : Db :=
  { db with attachments := db.attachments.update a.id (a.savedOver read) (a.savedOver_id read) }

def scanStep (s : AttachmentSync) (run : ℕ) (a : Attachment) (rest : List Attachment) :
    ScanPhase → ScanAction → AttachmentSync
  | .loaded, .scan verdict => s.scanTo run (some ⟨a.scanned verdict :: rest, .scanned⟩)
  | .scanned, .reread fails =>
    match s.db.attachments.findOne a.id with
    | some row => s.scanTo run (if fails then none else some ⟨a :: rest, .reread row⟩)
    | none => s
  | .reread row, .save fails =>
    if fails then s.scanTo run none
    else { s.scanTo run (some ⟨rest, .loaded⟩) with db := saveOver a row s.db }
  | _, _ => s

def pushStep (s : AttachmentSync) (run : ℕ) (a : Attachment) (rest : List Attachment) :
    PushPhase → PushAction → AttachmentSync
  | .loaded, .claim fails =>
    if a.jiraSynced = true ∨ a.scanStatus ∉ servableScanStatuses then s.pushTo run (some ⟨rest, .loaded⟩)
    else if fails then s.pushTo run none
    else if (s.db.attachments.findOne a.id).any (fun row => row.jiraSynced = false) then
      { s.pushTo run (some ⟨a :: rest, .claimed⟩) with db := setSynced a.id true s.db }
    else s.pushTo run (some ⟨rest, .loaded⟩)
  | .claimed, .readBytes fails => s.pushTo run (some ⟨a :: rest, if fails then .failed else .attempting 1⟩)
  | .attempting n, .addAttachment accepted =>
    if accepted then { s.pushTo run (some ⟨rest, .loaded⟩) with added := s.added ++ [a.id] }
    else s.pushTo run (some ⟨a :: rest, if n < maxAttempts then .attempting (n + 1) else .failed⟩)
  | .failed, .release fails =>
    if fails then s.pushTo run none
    else { s.pushTo run (some ⟨rest, .loaded⟩) with db := setSynced a.id false s.db }
  | _, _ => s

def step (s : AttachmentSync) : Action → AttachmentSync
  | .tick d => { s with clock := s.clock + d }
  | .pending run issueId =>
    if (s.scans run).isSome then s else s.scanTo run (some ⟨ScanningListener.pending issueId s.db, .loaded⟩)
  | .sweep run =>
    if (s.scans run).isSome then s else s.scanTo run (some ⟨ScanRetryService.stuck s.clock s.db, .loaded⟩)
  | .scan run act =>
    match s.scans run with
    | some ⟨a :: rest, phase⟩ => s.scanStep run a rest phase act
    | _ => s
  | .files run issueId =>
    if (s.pushes run).isSome then s
    else s.pushTo run (some ⟨s.db.attachments.rows.filter fun a => a.issue = issueId, .loaded⟩)
  | .push run act =>
    match s.pushes run with
    | some ⟨a :: rest, phase⟩ => s.pushStep run a rest phase act
    | _ => s

def synced (s : AttachmentSync) (id : Uuid) : Prop := ∃ row ∈ s.db.attachments.findOne id, row.jiraSynced = true

def AddedOnce (s : AttachmentSync) : Prop := s.added.Nodup

instance decidableAddedOnce (s : AttachmentSync) : Decidable (AddedOnce s) := List.nodupDecidable s.added

def VerdictsKept (s : AttachmentSync) (act : Action) : Prop := ∀ id, ∀ row ∈ s.db.attachments.findOne id,
  row.scanStatus ≠ .pending → ∀ row' ∈ (step s act).db.attachments.findOne id, row'.scanStatus ≠ .pending

/-- A scan's save finds no claim taken since the attachment was loaded and, where the scan failed, no verdict. -/
def SavesCurrent (s : AttachmentSync) : Action → Prop
  | .scan run (.save false) => ∀ r ∈ s.scans run, ∀ a ∈ r.left.head?, r.phase.WritesCurrent a
  | _ => True

instance decidableSavesCurrent (s : AttachmentSync) : (act : Action) → Decidable (SavesCurrent s act)
  | .scan run (.save false) =>
    inferInstanceAs (Decidable (∀ r ∈ s.scans run, ∀ a ∈ r.left.head?, r.phase.WritesCurrent a))
  | .scan _ (.save true) | .scan _ (.scan _) | .scan _ (.reread _) | .tick _ | .pending _ _ | .sweep _ | .files _ _
  | .push _ _ => isTrue trivial

structure Inv (s : AttachmentSync) : Prop where
  alone : ∀ k l, ∀ r ∈ s.pushes k, ∀ q ∈ s.pushes l, ∀ id ∈ r.claims, id ∈ q.claims → k = l
  held : ∀ k, ∀ r ∈ s.pushes k, ∀ id ∈ r.claims, s.synced id ∧ id ∉ s.added
  added : ∀ id ∈ s.added, s.synced id
  once : s.added.Nodup

variable {s t : AttachmentSync} {run : ℕ} {id : Uuid}

theorem synced_setSynced {i : Uuid} {b : Bool} (hi : i ≠ id ∨ b = true) (h : s.synced i) :
    ∃ row ∈ (setSynced id b s.db).attachments.findOne i, row.jiraSynced = true := by
  obtain ⟨row, hrow, hset⟩ := h
  simp only [setSynced, Table.findOne_update]
  split
  · rename_i heq
    refine ⟨row.withSynced b, ?_, ?_⟩
    · rw [show s.db.attachments.findOne i = some row from hrow]
      rfl
    · rcases hi with hne | rfl
      · exact absurd heq hne
      · rfl
  · exact ⟨row, hrow, hset⟩

theorem synced_saveOver {a read : Attachment} {i : Uuid} (hread : read.jiraSynced = true → a.jiraSynced = true)
    (h : s.synced i) : ∃ row ∈ (saveOver a read s.db).attachments.findOne i, row.jiraSynced = true := by
  obtain ⟨row, hrow, hset⟩ := h
  simp only [saveOver, Table.findOne_update]
  split
  · refine ⟨a.savedOver read row, ?_, savedOver_keeps_claim hread hset⟩
    rw [show s.db.attachments.findOne i = some row from hrow]
    rfl
  · exact ⟨row, hrow, hset⟩

theorem Inv.weaken (h : Inv s)
    (hclaims : ∀ k, ∀ r ∈ t.pushes k, ∀ i ∈ r.claims, ∃ q ∈ s.pushes k, i ∈ q.claims)
    (hsynced : ∀ i, s.synced i → t.synced i) (hadded : t.added = s.added) : Inv t := by
  constructor
  · intro k l r hr q hq i hi hi'
    obtain ⟨r', hr', hclaimed⟩ := hclaims k r hr i hi
    obtain ⟨q', hq', hclaimed'⟩ := hclaims l q hq i hi'
    exact h.alone k l r' hr' q' hq' i hclaimed hclaimed'
  · intro k r hr i hi
    obtain ⟨r', hr', hclaimed⟩ := hclaims k r hr i hi
    obtain ⟨hset, hunadded⟩ := h.held k r' hr' i hclaimed
    rw [hadded]
    exact ⟨hsynced i hset, hunadded⟩
  · intro i hi
    rw [hadded] at hi
    exact hsynced i (h.added i hi)
  · rw [hadded]
    exact h.once

theorem pushTo_self (r : Option PushRun) : (s.pushTo run r).pushes run = r := Function.update_self ..

theorem pushTo_ne {k : ℕ} (hk : k ≠ run) (r : Option PushRun) : (s.pushTo run r).pushes k = s.pushes k :=
  Function.update_of_ne hk ..

theorem claims_pushTo {r' : Option PushRun} (hr' : ∀ q ∈ r', ∀ i ∈ q.claims, ∃ r ∈ s.pushes run, i ∈ r.claims) (k : ℕ) :
    ∀ r ∈ (s.pushTo run r').pushes k, ∀ i ∈ r.claims, ∃ q ∈ s.pushes k, i ∈ q.claims := by
  intro r hr i hi
  by_cases hk : k = run
  · subst hk
    rw [pushTo_self] at hr
    exact hr' r hr i hi
  · rw [pushTo_ne hk] at hr
    exact ⟨r, hr, hi⟩

theorem claims_skip {left : List Attachment} :
    ∀ q ∈ some (PushRun.mk left .loaded), ∀ i ∈ q.claims, ∃ r ∈ s.pushes run, i ∈ r.claims := by
  intro q hq i hi
  cases hq
  exact absurd hi PushRun.claims_loaded

theorem claims_none : ∀ q ∈ (none : Option PushRun), ∀ i ∈ q.claims, ∃ r ∈ s.pushes run, i ∈ r.claims := by
  intro q hq
  cases hq

theorem pushTo_inv (h : Inv s) {r' : Option PushRun}
    (hr' : ∀ q ∈ r', ∀ i ∈ q.claims, ∃ r ∈ s.pushes run, i ∈ r.claims) : Inv (s.pushTo run r') :=
  h.weaken (claims_pushTo hr') (fun _ hi => hi) rfl

variable {a : Attachment} {rest : List Attachment}

theorem phase_inv (h : Inv s) {phase phase' : PushPhase} (hrun : s.pushes run = some ⟨a :: rest, phase⟩)
    (hclaimed : phase ≠ .loaded) : Inv (s.pushTo run (some ⟨a :: rest, phase'⟩)) := by
  refine pushTo_inv h fun q hq i hi => ⟨_, hrun, ?_⟩
  cases hq
  exact PushRun.claims_cons.mpr ⟨hclaimed, (PushRun.claims_cons.mp hi).2⟩

theorem claim_inv (h : Inv s) (hfree : ¬ s.synced a.id) (hrow : (s.db.attachments.findOne a.id).isSome = true) :
    Inv { s.pushTo run (some ⟨a :: rest, .claimed⟩) with db := setSynced a.id true s.db } := by
  have hunclaimed : ∀ k, ∀ r ∈ s.pushes k, a.id ∉ r.claims := fun k r hr hi => hfree (h.held k r hr a.id hi).1
  have hkept : ∀ i, s.synced i → ∃ row ∈ (setSynced a.id true s.db).attachments.findOne i, row.jiraSynced = true :=
    fun i hi => synced_setSynced (.inr rfl) hi
  have hclaims : ∀ k, ∀ r ∈ (s.pushTo run (some ⟨a :: rest, .claimed⟩)).pushes k, ∀ i ∈ r.claims,
      k = run ∧ i = a.id ∨ i ≠ a.id ∧ ∃ q ∈ s.pushes k, i ∈ q.claims := by
    intro k r hr i hi
    by_cases hk : k = run
    · rw [hk, pushTo_self] at hr
      cases hr
      exact .inl ⟨hk, (PushRun.claims_cons.mp hi).2.symm⟩
    · rw [pushTo_ne hk] at hr
      refine .inr ⟨?_, r, hr, hi⟩
      rintro rfl
      exact hunclaimed k r hr hi
  constructor
  · intro k l r hr q hq i hi hi'
    obtain ⟨rfl, rfl⟩ | ⟨hne, r', hr', hclaimed⟩ := hclaims k r hr i hi
    · obtain ⟨rfl, _⟩ | ⟨hne, _⟩ := hclaims l q hq _ hi'
      · rfl
      · exact absurd rfl hne
    · obtain ⟨_, rfl⟩ | ⟨_, q', hq', hclaimed'⟩ := hclaims l q hq i hi'
      · exact absurd rfl hne
      · exact h.alone k l r' hr' q' hq' i hclaimed hclaimed'
  · intro k r hr i hi
    obtain ⟨rfl, rfl⟩ | ⟨_, r', hr', hclaimed⟩ := hclaims k r hr i hi
    · obtain ⟨row, hfound⟩ := Option.isSome_iff_exists.mp hrow
      refine ⟨⟨row.withSynced true, ?_, rfl⟩, fun hadded => hfree (h.added a.id hadded)⟩
      simp [setSynced, hfound]
    · obtain ⟨hset, hunadded⟩ := h.held k r' hr' i hclaimed
      exact ⟨hkept i hset, hunadded⟩
  · intro i hi
    exact hkept i (h.added i hi)
  · exact h.once

theorem claims_others (h : Inv s) {phase : PushPhase} (hrun : s.pushes run = some ⟨a :: rest, phase⟩)
    (hclaimed : phase ≠ .loaded) (k : ℕ) : ∀ r ∈ (s.pushTo run (some ⟨rest, .loaded⟩)).pushes k, ∀ i ∈ r.claims,
      i ≠ a.id ∧ ∃ q ∈ s.pushes k, i ∈ q.claims := by
  intro r hr i hi
  by_cases hk : k = run
  · rw [hk, pushTo_self] at hr
    cases hr
    exact absurd hi PushRun.claims_loaded
  · rw [pushTo_ne hk] at hr
    refine ⟨?_, r, hr, hi⟩
    rintro rfl
    exact hk (h.alone k run r hr _ hrun a.id hi (PushRun.claims_cons.mpr ⟨hclaimed, rfl⟩))

theorem add_inv (h : Inv s) {phase : PushPhase} (hrun : s.pushes run = some ⟨a :: rest, phase⟩)
    (hclaimed : phase ≠ .loaded) :
    Inv { s.pushTo run (some ⟨rest, .loaded⟩) with added := s.added ++ [a.id] } := by
  obtain ⟨hset, hunadded⟩ := h.held run _ hrun a.id (PushRun.claims_cons.mpr ⟨hclaimed, rfl⟩)
  have hothers := claims_others h hrun hclaimed
  refine ⟨fun k l r hr q hq i hi hi' => ?_, fun k r hr i hi => ?_, fun i hi => ?_, ?_⟩
  · obtain ⟨_, r', hr', hcl⟩ := hothers k r hr i hi
    obtain ⟨_, q', hq', hcl'⟩ := hothers l q hq i hi'
    exact h.alone k l r' hr' q' hq' i hcl hcl'
  · obtain ⟨hne, r', hr', hcl⟩ := hothers k r hr i hi
    obtain ⟨hi, hfresh⟩ := h.held k r' hr' i hcl
    refine ⟨hi, fun hadded => ?_⟩
    rcases List.mem_append.mp hadded with hold | hnew
    · exact hfresh hold
    · exact hne (List.mem_singleton.mp hnew)
  · rcases List.mem_append.mp hi with hold | hnew
    · exact h.added i hold
    · rw [List.mem_singleton.mp hnew]
      exact hset
  · apply List.nodup_append.mpr
    refine ⟨h.once, List.nodup_singleton _, fun i hi j hj => ?_⟩
    rw [List.mem_singleton.mp hj]
    rintro rfl
    exact hunadded hi

theorem release_inv (h : Inv s) {phase : PushPhase} (hrun : s.pushes run = some ⟨a :: rest, phase⟩)
    (hclaimed : phase ≠ .loaded) :
    Inv { s.pushTo run (some ⟨rest, .loaded⟩) with db := setSynced a.id false s.db } := by
  obtain ⟨_, hunadded⟩ := h.held run _ hrun a.id (PushRun.claims_cons.mpr ⟨hclaimed, rfl⟩)
  have hothers := claims_others h hrun hclaimed
  refine ⟨fun k l r hr q hq i hi hi' => ?_, fun k r hr i hi => ?_, fun i hi => ?_, h.once⟩
  · obtain ⟨_, r', hr', hcl⟩ := hothers k r hr i hi
    obtain ⟨_, q', hq', hcl'⟩ := hothers l q hq i hi'
    exact h.alone k l r' hr' q' hq' i hcl hcl'
  · obtain ⟨hne, r', hr', hcl⟩ := hothers k r hr i hi
    obtain ⟨hset, hfresh⟩ := h.held k r' hr' i hcl
    exact ⟨synced_setSynced (.inl hne) hset, hfresh⟩
  · refine synced_setSynced (.inl ?_) (h.added i hi)
    rintro rfl
    exact hunadded hi

theorem pushStep_inv (h : Inv s) {phase : PushPhase} (hrun : s.pushes run = some ⟨a :: rest, phase⟩) (act : PushAction) :
    Inv (s.pushStep run a rest phase act) := by
  unfold pushStep
  split
  · split
    · exact pushTo_inv h claims_skip
    · split
      · exact pushTo_inv h claims_none
      · split
        · rename_i hunset
          cases hfound : s.db.attachments.findOne a.id with
          | none => simp [hfound] at hunset
          | some row =>
            refine claim_inv h ?_ (by rw [hfound]; rfl)
            rintro ⟨row', hrow', hset⟩
            rw [hfound] at hunset hrow'
            cases hrow'
            simp [hset] at hunset
        · exact pushTo_inv h claims_skip
  · exact phase_inv h hrun (by decide)
  · split
    · exact add_inv h hrun (by simp)
    · exact phase_inv h hrun (by simp)
  · split
    · exact pushTo_inv h claims_none
    · exact release_inv h hrun (by decide)
  · exact h

theorem scanStep_inv (h : Inv s) {phase : ScanPhase} {act : ScanAction}
    (hcurrent : act = .save false → phase.WritesCurrent a) : Inv (s.scanStep run a rest phase act) := by
  have hscan : ∀ r, Inv (s.scanTo run r) := fun r => h.weaken (fun k r hr i hi => ⟨r, hr, hi⟩) (fun _ hi => hi) rfl
  unfold scanStep
  split
  · exact hscan _
  · split
    · exact hscan _
    · exact h
  · rename_i row fails
    split
    · exact hscan _
    · rename_i hwritten
      have hwrites := hcurrent (by simp [hwritten])
      exact h.weaken (fun k r hr i hi => ⟨r, hr, hi⟩) (fun i hi => synced_saveOver hwrites.1 hi) rfl
  · exact h

theorem step_inv (s : AttachmentSync) (act : Action) (h : Inv s) (hcurrent : SavesCurrent s act) : Inv (step s act) := by
  have hscan : ∀ run r, Inv (s.scanTo run r) :=
    fun run r => h.weaken (fun k r hr i hi => ⟨r, hr, hi⟩) (fun _ hi => hi) rfl
  cases act with
  | tick d => exact ⟨h.alone, h.held, h.added, h.once⟩
  | pending run issueId =>
    simp only [step]
    split
    · exact h
    · exact hscan run _
  | sweep run =>
    simp only [step]
    split
    · exact h
    · exact hscan run _
  | scan run act =>
    simp only [step]
    split
    · rename_i a rest phase hrun
      apply scanStep_inv h
      intro hact
      subst hact
      exact hcurrent _ hrun a rfl
    · exact h
  | files run issueId =>
    simp only [step]
    split
    · exact h
    · exact pushTo_inv h claims_skip
  | push run act =>
    simp only [step]
    split
    · exact pushStep_inv h ‹_› act
    · exact h

theorem step_db (s : AttachmentSync) (act : Action) : (step s act).db = s.db ∨
    (∃ id synced, (step s act).db = setSynced id synced s.db) ∨
    ∃ run a rest row, act = .scan run (.save false) ∧ s.scans run = some ⟨a :: rest, .reread row⟩ ∧
      (step s act).db = saveOver a row s.db := by
  cases act with
  | tick d => exact .inl rfl
  | pending run issueId | sweep run | files run issueId =>
    simp only [step]
    split <;> exact .inl rfl
  | scan run act =>
    simp only [step]
    split
    · rename_i a rest phase hrun
      unfold scanStep
      split
      · exact .inl rfl
      · split <;> exact .inl rfl
      · rename_i row fails
        cases fails with
        | true => exact .inl rfl
        | false => exact .inr (.inr ⟨run, a, rest, row, rfl, hrun, rfl⟩)
      · exact .inl rfl
    · exact .inl rfl
  | push run act =>
    simp only [step]
    split
    · rename_i a rest phase hrun
      unfold pushStep
      split
      · split
        · exact .inl rfl
        · split
          · exact .inl rfl
          · split
            · exact .inr (.inl ⟨_, _, rfl⟩)
            · exact .inl rfl
      · exact .inl rfl
      · split <;> exact .inl rfl
      · split
        · exact .inl rfl
        · exact .inr (.inl ⟨_, _, rfl⟩)
      · exact .inl rfl
    · exact .inl rfl

theorem step_verdictsKept (s : AttachmentSync) (act : Action) (hcurrent : SavesCurrent s act) : VerdictsKept s act := by
  intro id row hrow hverdict row' hrow'
  obtain hdb | ⟨i, synced, hdb⟩ | ⟨run, a, rest, read, rfl, hrun, hdb⟩ := step_db s act
  · rw [hdb, show s.db.attachments.findOne id = some row from hrow] at hrow'
    cases hrow'
    exact hverdict
  · simp only [hdb, setSynced, Table.findOne_update, show s.db.attachments.findOne id = some row from hrow] at hrow'
    split at hrow' <;> cases hrow' <;> exact hverdict
  · have hwrites := hcurrent _ hrun a rfl
    simp only [hdb, saveOver, Table.findOne_update, show s.db.attachments.findOne id = some row from hrow] at hrow'
    split at hrow' <;> cases hrow'
    · exact savedOver_keeps_verdict hwrites.2 hverdict
    · exact hverdict

theorem start_inv (db : Db) (clock : Time) : Inv (start db clock) where
  alone _ _ _ hr := by cases hr
  held _ _ hr := by cases hr
  added _ hi := by cases hi
  once := List.nodup_nil

/-- No file is pushed twice and no verdict undone, in every run whose scans save nothing they did not find. -/
theorem always_addedOnce_of_savesCurrent {db : Db} {clock : Time} {as : List Action}
    (h : EveryStep step SavesCurrent (start db clock) as) :
    Always step AddedOnce (start db clock) as ∧ EveryStep step VerdictsKept (start db clock) as :=
  ⟨(always_of_everyStep step_inv (start_inv db clock) h).mono fun _ hs => hs.once, h.mono step_verdictsKept⟩

end AttachmentSync

namespace Sample

def screenshot : Attachment := ⟨"file", "A", "uploads/1", "screen.png", "image/png", 1024, .pending, false, 0⟩

def attached : Db := { Db.empty with attachments := ⟨[screenshot], by decide⟩ }

end Sample

namespace AttachmentSync

def scanned (run : ℕ) (verdict : Option ScanStatus) : List Action :=
  [.scan run (.scan verdict), .scan run (.reread false), .scan run (.save false)]

def pushed (run : ℕ) : List Action :=
  [.files run "A", .push run (.claim false), .push run (.readBytes false), .push run (.addAttachment false),
    .push run (.addAttachment true)]

theorem always_addedOnce_of_savesCurrent_inTurn :
    Always step AddedOnce (start Sample.attached 0) (.pending 0 "A" :: (scanned 0 (some .clean) ++ pushed 0 ++ pushed 1)) ∧
      EveryStep step VerdictsKept (start Sample.attached 0)
        (.pending 0 "A" :: (scanned 0 (some .clean) ++ pushed 0 ++ pushed 1)) :=
  always_addedOnce_of_savesCurrent (by decide)

def overlappingSweeps : List Action :=
  [.tick 1000000, .sweep 0, .tick 600000, .sweep 1] ++ scanned 0 (some .clean) ++ pushed 0 ++ scanned 1 (some .clean) ++ pushed 1

theorem attachment_pushed_twice :
    ¬ ∀ (db : Db) (clock : Time) (as : List Action),
      Always step AddedOnce (start db clock) as ∧ EveryStep step VerdictsKept (start db clock) as := by
  intro h
  have honce : AddedOnce _ := (h Sample.attached 0 overlappingSweeps).1.final
  revert honce
  decide

/-- The scanner fails the second sweep. -/
example : ((exec step (start Sample.attached 0)
    ([.tick 1000000, .sweep 0, .tick 600000, .sweep 1] ++ scanned 0 (some .clean) ++ scanned 1 none)).db.attachments.findOne
      "file").map Attachment.scanStatus = some .pending := by decide

end AttachmentSync

end Cimp
