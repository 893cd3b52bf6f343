import Cimp.Entities
import Mathlib.Data.List.Sort

namespace Cimp

def changed {α : Type} [DecidableEq α] (entity read stored : α) : α := if entity = read then stored else entity

def Attachment.savedOver (a read row : Attachment) : Attachment where
  id := row.id
  issue := row.issue
  storageKey := changed a.storageKey read.storageKey row.storageKey
  filename := changed a.filename read.filename row.filename
  contentType := changed a.contentType read.contentType row.contentType
  sizeBytes := changed a.sizeBytes read.sizeBytes row.sizeBytes
  scanStatus := changed a.scanStatus read.scanStatus row.scanStatus
  jiraSynced := changed a.jiraSynced read.jiraSynced row.jiraSynced
  createdAt := changed a.createdAt read.createdAt row.createdAt

/-- `verdict` is what the scanner answers, `none` when reading or scanning throws. -/
def Attachment.scanned (verdict : Option ScanStatus) (a : Attachment) : Attachment :=
  { a with scanStatus := verdict.getD .pending }

def Attachment.withSynced (synced : Bool) (a : Attachment) : Attachment := { a with jiraSynced := synced }

@[simp] theorem Attachment.savedOver_id (a read row : Attachment) : (a.savedOver read row).id = row.id := rfl

@[simp] theorem Attachment.withSynced_id (synced : Bool) (a : Attachment) : (a.withSynced synced).id = a.id := rfl

theorem savedOver_keeps_claim {a read row : Attachment} (h : read.jiraSynced = true → a.jiraSynced = true)
    (hrow : row.jiraSynced = true) : (a.savedOver read row).jiraSynced = true := by
  simp only [Attachment.savedOver, changed]
  split
  · exact hrow
  · rename_i hdiffers
    cases hset : a.jiraSynced with
    | true => rfl
    | false =>
      rw [hset] at hdiffers
      have hread : read.jiraSynced = true := by simpa using Ne.symm hdiffers
      rw [h hread] at hset
      cases hset

theorem savedOver_keeps_verdict {a read row : Attachment} (h : a.scanStatus = .pending → read.scanStatus = .pending)
    (hrow : row.scanStatus ≠ .pending) : (a.savedOver read row).scanStatus ≠ .pending := by
  simp only [Attachment.savedOver, changed]
  split
  · exact hrow
  · rename_i hdiffers
    intro hpending
    exact hdiffers (hpending.trans (h hpending).symm)

def pendingGraceMs : Time := 15 * 60 * 1000

def batchSize : ℕ := 25

def ScanningListener.pending (issueId : Uuid) (db : Db) : List Attachment :=
  db.attachments.rows.filter fun a => a.issue = issueId ∧ a.scanStatus = .pending

def ScanRetryService.stuck (now : Time) (db : Db) : List Attachment :=
  ((db.attachments.rows.filter fun a => a.scanStatus = .pending ∧ a.createdAt + pendingGraceMs < now).insertionSort
    fun a b => b.createdAt ≤ a.createdAt).take batchSize

/-- Where `scanAndPersist` stands with the first attachment left: `save` re-reads the row, then updates it. -/
inductive ScanPhase
  | loaded
  | scanned
  | reread (row : Attachment)
deriving DecidableEq

def ScanPhase.WritesCurrent (a : Attachment) : ScanPhase → Prop
  | .reread row => (row.jiraSynced = true → a.jiraSynced = true) ∧ (a.scanStatus = .pending → row.scanStatus = .pending)
  | _ => True

instance ScanPhase.decidableWritesCurrent (a : Attachment) : (phase : ScanPhase) → Decidable (phase.WritesCurrent a)
  | .reread row => inferInstanceAs (Decidable ((row.jiraSynced = true → a.jiraSynced = true) ∧
      (a.scanStatus = .pending → row.scanStatus = .pending)))
  | .loaded | .scanned => isTrue trivial

structure ScanRun where
  left : List Attachment
  phase : ScanPhase
deriving DecidableEq

inductive PushPhase
  | loaded
  | claimed
  | attempting (attempt : ℕ)
  | failed
deriving DecidableEq

structure PushRun where
  left : List Attachment
  phase : PushPhase
deriving DecidableEq

def PushRun.claims (r : PushRun) : Option Uuid := if r.phase = .loaded then none else r.left.head?.map Attachment.id

theorem PushRun.claims_loaded {left : List Attachment} {id : Uuid} : id ∉ PushRun.claims ⟨left, .loaded⟩ := by
  simp [PushRun.claims]

theorem PushRun.claims_cons {a : Attachment} {rest : List Attachment} {phase : PushPhase} {id : Uuid} :
    id ∈ PushRun.claims ⟨a :: rest, phase⟩ ↔ phase ≠ .loaded ∧ a.id = id := by
  by_cases h : phase = .loaded <;> simp [PushRun.claims, h]

end Cimp
