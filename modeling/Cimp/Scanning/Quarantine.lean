import Cimp.Issues.Related
import Cimp.Jira.Attachments
import Cimp.Reporter.Uploads
import Cimp.Scanning.Verdict

namespace Cimp

open Execution

namespace StorageService

/-- `StorageService.read`; `fails` is the backend being out of reach. -/
def read (blobs : List Blob) (fails : Bool) (storageKey : String) : Except HttpException (List UInt8) :=
  if fails then .error .internalServerError
  else match blobs.find? fun b => b.storageKey = storageKey with
    | none => .error .internalServerError
    | some b => .ok b.buffer

theorem read_ok {blobs : List Blob} {fails : Bool} {storageKey : String} {buffer : List UInt8}
    (h : read blobs fails storageKey = .ok buffer) : ∃ b ∈ blobs, b.storageKey = storageKey ∧ b.buffer = buffer := by
  unfold read at h
  split at h
  · cases h
  · split at h
    · cases h
    · rename_i b hb
      cases h
      have hkey := List.find?_some hb
      exact ⟨b, List.mem_of_find?_eq_some hb, of_decide_eq_true hkey, rfl⟩

end StorageService

namespace ReporterService

def getAttachmentForReporter (storage : String → Except HttpException (List UInt8)) (db : Db) (ctx : HandoffContext)
    (issueId attachmentId : Uuid) : Except HttpException ServableFile :=
  match findReporter db ctx with
  | none => .error (.notFound "Attachment not found")
  | some reporter =>
    match (db.attachments.findOne attachmentId).filter fun a =>
        a.issue = issueId && (db.issues.findOne issueId).any fun i => i.reporter = reporter.id with
    | none => .error (.notFound "Attachment not found")
    | some attachment => do
      require (attachment.scanStatus ∈ servableScanStatuses)
        (.forbidden ("Attachment is not available (scan status: " ++ attachment.scanStatus.value ++ ")."))
      let buffer ← storage attachment.storageKey
      return ⟨buffer, attachment.filename, attachment.contentType⟩

end ReporterService

namespace AttachmentSync

variable {s : AttachmentSync} {act : Action} {k : ℕ}

inductive ScanEffect (s : AttachmentSync) (act : Action) (k : ℕ) : ScanRun → Prop
  | kept {r : ScanRun} (h : s.scans k = some r) : ScanEffect s act k r
  | loaded {left : List Attachment} (h : ∀ a ∈ left, a ∈ s.db.attachments.rows) : ScanEffect s act k ⟨left, .loaded⟩
  | scanned {a : Attachment} {rest : List Attachment} {verdict : Option ScanStatus}
      (h : s.scans k = some ⟨a :: rest, .loaded⟩) (hact : act = .scan k (.scan verdict)) :
      ScanEffect s act k ⟨a.scanned verdict :: rest, .scanned⟩
  | reread {a row : Attachment} {rest : List Attachment} (h : s.scans k = some ⟨a :: rest, .scanned⟩)
      (hrow : s.db.attachments.findOne a.id = some row) : ScanEffect s act k ⟨a :: rest, .reread row⟩
  | saved {a : Attachment} {rest : List Attachment} {phase : ScanPhase} (h : s.scans k = some ⟨a :: rest, phase⟩) :
      ScanEffect s act k ⟨rest, .loaded⟩

inductive PushEffect (s : AttachmentSync) (act : Action) (k : ℕ) : PushRun → Prop
  | kept {r : PushRun} (h : s.pushes k = some r) : PushEffect s act k r
  | loaded {left : List Attachment} (h : ∀ a ∈ left, a ∈ s.db.attachments.rows) : PushEffect s act k ⟨left, .loaded⟩
  | claimed {a : Attachment} {rest : List Attachment} (h : s.pushes k = some ⟨a :: rest, .loaded⟩)
      (hservable : a.scanStatus ∈ servableScanStatuses) : PushEffect s act k ⟨a :: rest, .claimed⟩
  | read {a : Attachment} {rest : List Attachment} (h : s.pushes k = some ⟨a :: rest, .claimed⟩)
      (hact : act = .push k (.readBytes false)) : PushEffect s act k ⟨a :: rest, .attempting 1⟩
  | retried {a : Attachment} {rest : List Attachment} {n : ℕ} (h : s.pushes k = some ⟨a :: rest, .attempting n⟩) :
      PushEffect s act k ⟨a :: rest, .attempting (n + 1)⟩
  | failed {a : Attachment} {rest : List Attachment} {phase : PushPhase} (h : s.pushes k = some ⟨a :: rest, phase⟩)
      (hphase : phase ≠ .loaded) : PushEffect s act k ⟨a :: rest, .failed⟩
  | done {a : Attachment} {rest : List Attachment} {phase : PushPhase} (h : s.pushes k = some ⟨a :: rest, phase⟩) :
      PushEffect s act k ⟨rest, .loaded⟩

theorem scanTo_effect {run : ℕ} {r : Option ScanRun} (h : ∀ q, r = some q → ScanEffect s act run q) {q : ScanRun}
    (hq : (s.scanTo run r).scans k = some q) : ScanEffect s act k q := by
  by_cases hk : k = run
  · subst hk
    simp only [scanTo, Function.update_self] at hq
    exact h q hq
  · simp only [scanTo, Function.update_of_ne hk] at hq
    exact .kept hq

theorem pushTo_effect {run : ℕ} {r : Option PushRun} (h : ∀ q, r = some q → PushEffect s act run q) {q : PushRun}
    (hq : (s.pushTo run r).pushes k = some q) : PushEffect s act k q := by
  by_cases hk : k = run
  · subst hk
    rw [pushTo_self] at hq
    exact h q hq
  · rw [pushTo_ne hk] at hq
    exact .kept hq

theorem scanStep_effect {run : ℕ} {a : Attachment} {rest : List Attachment} {phase : ScanPhase} {b : ScanAction}
    (hrun : s.scans run = some ⟨a :: rest, phase⟩) {q : ScanRun}
    (hq : (s.scanStep run a rest phase b).scans k = some q) : ScanEffect s (.scan run b) k q := by
  unfold scanStep at hq
  split at hq
  · apply scanTo_effect _ hq
    rintro _ ⟨⟩
    exact .scanned hrun rfl
  · split at hq
    · rename_i row hrow
      apply scanTo_effect _ hq
      intro q hq
      split at hq
      · cases hq
      · cases hq
        exact .reread hrun hrow
    · exact .kept hq
  · split at hq
    · apply scanTo_effect _ hq
      intro _ hnone
      cases hnone
    · apply scanTo_effect _ hq
      rintro _ ⟨⟩
      exact .saved hrun
  · exact .kept hq

theorem pushStep_effect {run : ℕ} {a : Attachment} {rest : List Attachment} {phase : PushPhase} {b : PushAction}
    (hrun : s.pushes run = some ⟨a :: rest, phase⟩) {q : PushRun}
    (hq : (s.pushStep run a rest phase b).pushes k = some q) : PushEffect s (.push run b) k q := by
  have hgone : ∀ q, (none : Option PushRun) = some q → PushEffect s (.push run b) run q := by
    intro _ hnone
    cases hnone
  have hdone : ∀ q, some (⟨rest, .loaded⟩ : PushRun) = some q → PushEffect s (.push run b) run q := by
    rintro _ ⟨⟩
    exact .done hrun
  unfold pushStep at hq
  split at hq
  · split at hq
    · exact pushTo_effect hdone hq
    · rename_i hclaimable
      split at hq
      · exact pushTo_effect hgone hq
      · split at hq
        · apply pushTo_effect _ hq
          rintro _ ⟨⟩
          exact .claimed hrun (not_not.mp fun h => hclaimable (.inr h))
        · exact pushTo_effect hdone hq
  · rename_i fails
    apply pushTo_effect _ hq
    rintro _ ⟨⟩
    cases fails with
    | true => exact .failed hrun (by decide)
    | false => exact .read hrun rfl
  · split at hq
    · exact pushTo_effect hdone hq
    · apply pushTo_effect _ hq
      rintro _ ⟨⟩
      split
      · exact .retried hrun
      · exact .failed hrun (by simp)
  · split at hq
    · exact pushTo_effect hgone hq
    · exact pushTo_effect hdone hq
  · exact .kept hq

theorem scans_effect (s : AttachmentSync) (act : Action) {q : ScanRun} (hq : (s.step act).scans k = some q) :
    ScanEffect s act k q := by
  have hloaded : ∀ run left, (∀ a ∈ left, a ∈ s.db.attachments.rows) →
      ∀ q, some (⟨left, .loaded⟩ : ScanRun) = some q → ScanEffect s act run q := by
    rintro run left hleft _ ⟨⟩
    exact .loaded hleft
  cases act with
  | tick d => exact .kept hq
  | pending run issueId =>
    simp only [step] at hq
    split at hq
    · exact .kept hq
    · exact scanTo_effect (hloaded run _ fun a ha => List.mem_of_mem_filter ha) hq
  | sweep run =>
    simp only [step] at hq
    split at hq
    · exact .kept hq
    · refine scanTo_effect (hloaded run _ fun a ha => ?_) hq
      exact List.mem_of_mem_filter ((List.perm_insertionSort _ _).subset (List.mem_of_mem_take ha))
  | scan run b =>
    simp only [step] at hq
    split at hq
    · rename_i a rest phase hrun
      exact scanStep_effect hrun hq
    · exact .kept hq
  | files run issueId =>
    simp only [step] at hq
    split at hq <;> exact .kept hq
  | push run b =>
    have hsame : (s.step (.push run b)).scans = s.scans := by
      simp only [step]
      split
      · unfold pushStep
        repeat' split
        all_goals rfl
      · rfl
    rw [hsame] at hq
    exact .kept hq

theorem pushes_effect (s : AttachmentSync) (act : Action) {q : PushRun} (hq : (s.step act).pushes k = some q) :
    PushEffect s act k q := by
  cases act with
  | tick d => exact .kept hq
  | pending run issueId | sweep run =>
    simp only [step] at hq
    split at hq <;> exact .kept hq
  | scan run b =>
    have hsame : (s.step (.scan run b)).pushes = s.pushes := by
      simp only [step]
      split
      · unfold scanStep
        repeat' split
        all_goals rfl
      · rfl
    rw [hsame] at hq
    exact .kept hq
  | files run issueId =>
    simp only [step] at hq
    split at hq
    · exact .kept hq
    · apply pushTo_effect _ hq
      rintro _ ⟨⟩
      exact .loaded fun a ha => List.mem_of_mem_filter ha
  | push run b =>
    simp only [step] at hq
    split at hq
    · rename_i a rest phase hrun
      exact pushStep_effect hrun hq
    · exact .kept hq

end AttachmentSync

namespace ReporterService

theorem createIssueWithFiles_stores (env : IntakeEnv) (ctx : HandoffContext) (dto : CreateIssueDto)
    (files : List UploadedFile) (s : Stores) (hfresh : FreshKeys s.blobs env.saves) :
    (∃ issueId, Committed files s (createIssueWithFiles env ctx dto files s).stores issueId) ∨
      (createIssueWithFiles env ctx dto files s).stores.blobs = s.blobs ∧
        (createIssueWithFiles env ctx dto files s).stores.db.attachments = s.db.attachments := by
  unfold createIssueWithFiles
  split
  · exact .inr ⟨rfl, rfl⟩
  · rename_i types hvalid
    split
    · exact .inr ⟨rfl, rfl⟩
    · rename_i db reporter hreporter
      obtain ⟨reporterId, _, hupsert⟩ := Option.bind_eq_some_iff.mp hreporter
      have hissues : db.issues = s.db.issues := upsertReporter_keeps (fun _ _ => rfl) hupsert
      have hattachments : db.attachments = s.db.attachments := upsertReporter_keeps (fun _ _ => rfl) hupsert
      have haudit : db.auditEvents = s.db.auditEvents := upsertReporter_keeps (fun _ _ => rfl) hupsert
      have hdeleted := deleteAll_written hfresh files types
      dsimp only at hdeleted ⊢
      split
      · exact .inr ⟨hdeleted, hattachments⟩
      · rename_i hall
        rw [Bool.not_eq_true] at hall
        obtain ⟨⟨k, hk⟩, _⟩ := retry_spec (fun k => persistIssueOnce ctx dto reporter
          (((saveAll env.saves files types).filterMap id).map Prod.snd) (env.attempts k) db) (maxAttempts - 1) 1
        rw [createIssueWithUniqueReference]
        split
        · rw [List.map_map]
          exact .inr ⟨hdeleted, hattachments⟩
        · rename_i issueId saved n hresult
          rw [hresult] at hk
          exact .inl ⟨issueId, committed_of_persisted hfresh hvalid hall hissues hattachments haudit hk.symm⟩

end ReporterService

/-- A file that leaves the deployment is a servable attachment with the bytes under its key. -/
def Serves (storage : String → Except HttpException (List UInt8)) (db : Db) (file : ServableFile) : Prop :=
  ∃ a ∈ db.attachments.rows, a.scanStatus ∈ servableScanStatuses ∧ storage a.storageKey = .ok file.buffer ∧
    file.contentType = a.contentType

theorem serves_of_getForStaff {storage : String → Except HttpException (List UInt8)} {db : Db}
    {staff : AuthenticatedStaff} {attachmentId : Uuid} {file : ServableFile}
    (h : AttachmentsService.getForStaff storage db staff attachmentId = .ok file) : Serves storage db file := by
  unfold AttachmentsService.getForStaff at h
  split at h
  · cases h
  · rename_i a issue hfound
    obtain ⟨_, _, h⟩ := bind_ok h
    obtain ⟨_, hservable, h⟩ := bind_ok h
    obtain ⟨buffer, hbuffer, h⟩ := bind_ok h
    cases h
    obtain ⟨row, hrow, hissue⟩ := Option.bind_eq_some_iff.mp hfound
    obtain ⟨_, _, hpair⟩ := Option.map_eq_some_iff.mp hissue
    cases hpair
    exact ⟨a, Table.mem_of_findOne hrow, require_decide hservable, hbuffer, rfl⟩

theorem serves_of_getAttachmentForReporter {storage : String → Except HttpException (List UInt8)} {db : Db}
    {ctx : HandoffContext} {issueId attachmentId : Uuid} {file : ServableFile}
    (h : ReporterService.getAttachmentForReporter storage db ctx issueId attachmentId = .ok file) :
    Serves storage db file := by
  unfold ReporterService.getAttachmentForReporter at h
  split at h
  · cases h
  · split at h
    · cases h
    · rename_i a hfound
      obtain ⟨_, hservable, h⟩ := bind_ok h
      obtain ⟨buffer, hbuffer, h⟩ := bind_ok h
      cases h
      exact ⟨a, Table.mem_of_findOne (Option.filter_eq_some_iff.mp hfound).1, require_decide hservable, hbuffer, rfl⟩

/-- The scanner daemon and the decoder of its answers. The daemon answers the bytes it was sent. -/
structure Clamd where
  reply : List UInt8 → List UInt8
  toText : List UInt8 → List Char

/-- What happens on the sockets that a scanner opens: whatever was sent, an answer that ends is the whole answer. -/
structure Conversation (clamd : Clamd) where
  events : List UInt8 → List ClamavScanService.SocketEvent
  whole : ∀ sent reply, ClamavScanService.settle [] (events sent) = some (.ok reply) → reply = clamd.reply sent

namespace Clamd

def passes (clamd : Clamd) (buffer : List UInt8) : Prop :=
  ClamavScanService.verdict (clamd.toText (clamd.reply (ClamavScanService.instream buffer).flatten)) = .clean

/-- What a daemon of the documented protocol does: it reads the frames behind the command, and an infected stream it
answers with what it found. -/
def Finds (clamd : Clamd) (infected : List UInt8 → Prop) : Prop :=
  ∀ frames data, Framing.read 4 frames = some (data, []) → infected data.flatten →
    ClamavScanService.testsFound (clamd.toText (clamd.reply (ClamavScanService.command ++ frames))) = true

theorem Finds.not_infected {clamd : Clamd} {infected : List UInt8 → Prop} (hfinds : clamd.Finds infected)
    {buffer : List UInt8} (h : clamd.passes buffer) : ¬ infected buffer := by
  intro hinfected
  obtain ⟨frames, data, hsent, hread, rfl⟩ := ClamavScanService.flatten_instream buffer
  have hfound := hfinds frames data hread hinfected
  rw [← hsent, ClamavScanService.verdict_clean h] at hfound
  cases hfound

end Clamd

/-- `released` are the files that left: as a download or in a request to Jira, taken or not. -/
structure Quarantine where
  blobs : List Blob
  sync : AttachmentSync
  buffers : ℕ → List UInt8
  released : List ServableFile

namespace Quarantine

variable {clamd : Clamd}

inductive Action (clamd : Clamd)
  | tick (d : ℕ)
  | intake (env : IntakeEnv) (ctx : HandoffContext) (dto : CreateIssueDto) (files : List UploadedFile)
  | pending (run : ℕ) (issueId : Uuid)
  | sweep (run : ℕ)
  | scan (run : ℕ) (fails : Bool) (conversation : Conversation clamd)
  | reread (run : ℕ) (fails : Bool)
  | save (run : ℕ) (fails : Bool)
  | files (run : ℕ) (issueId : Uuid)
  | claim (run : ℕ) (fails : Bool)
  | readBytes (run : ℕ) (fails : Bool)
  | addAttachment (run : ℕ) (accepted : Bool)
  | release (run : ℕ) (fails : Bool)
  | getForStaff (fails : Bool) (staff : AuthenticatedStaff) (attachmentId : Uuid)
  | getForReporter (fails : Bool) (ctx : HandoffContext) (issueId attachmentId : Uuid)
  -- what the rest of the deployment leaves of its own tables
  | elsewhere (db : Db)

def start (db : Db) (clock : Time) : Quarantine := ⟨[], AttachmentSync.start db clock, fun _ => [], []⟩

def apply (s : Quarantine) (act : AttachmentSync.Action) : Quarantine := { s with sync := s.sync.step act }

def setDb (s : Quarantine) (db : Db) : Quarantine := { s with sync := { s.sync with db } }

def hand (s : Quarantine) (answer : Except HttpException ServableFile) : Quarantine :=
  match answer with
  | .error _ => s
  | .ok file => { s with released := s.released ++ [file] }

def intake (s : Quarantine) (env : IntakeEnv) (ctx : HandoffContext) (dto : CreateIssueDto)
    (files : List UploadedFile) : Quarantine :=
  let stores := (ReporterService.createIssueWithFiles env ctx dto files ⟨s.blobs, s.sync.db⟩).stores
  { s.setDb stores.db with blobs := stores.blobs }

/-- `scanAndPersist` up to the verdict. A socket that has not settled leaves the run where it is. -/
def scan (s : Quarantine) (run : ℕ) (fails : Bool) (conversation : Conversation clamd) : Quarantine :=
  match s.sync.scans run with
  | some ⟨a :: _, .loaded⟩ =>
    match StorageService.read s.blobs fails a.storageKey with
    | .error _ => s.apply (.scan run (.scan none))
    | .ok buffer =>
      match ClamavScanService.scan clamd.toText (conversation.events (ClamavScanService.instream buffer).flatten) with
      | none => s
      | some status => s.apply (.scan run (.scan (some status)))
  | _ => s

def readBytes (s : Quarantine) (run : ℕ) (fails : Bool) : Quarantine :=
  match s.sync.pushes run with
  | some ⟨a :: _, .claimed⟩ =>
    match StorageService.read s.blobs fails a.storageKey with
    | .error _ => s.apply (.push run (.readBytes true))
    | .ok buffer =>
      { s.apply (.push run (.readBytes false)) with buffers := Function.update s.buffers run buffer }
  | _ => s

def addAttachment (s : Quarantine) (run : ℕ) (accepted : Bool) : Quarantine :=
  match s.sync.pushes run with
  | some ⟨a :: _, .attempting _⟩ =>
    { s.apply (.push run (.addAttachment accepted)) with
      released := s.released ++ [⟨s.buffers run, a.filename, a.contentType⟩] }
  | _ => s

def step (s : Quarantine) : Action clamd → Quarantine
  | .tick d => s.apply (.tick d)
  | .intake env ctx dto files => s.intake env ctx dto files
  | .pending run issueId => s.apply (.pending run issueId)
  | .sweep run => s.apply (.sweep run)
  | .scan run fails conversation => s.scan run fails conversation
  | .reread run fails => s.apply (.scan run (.reread fails))
  | .save run fails => s.apply (.scan run (.save fails))
  | .files run issueId => s.apply (.files run issueId)
  | .claim run fails => s.apply (.push run (.claim fails))
  | .readBytes run fails => s.readBytes run fails
  | .addAttachment run accepted => s.addAttachment run accepted
  | .release run fails => s.apply (.push run (.release fails))
  | .getForStaff fails staff attachmentId =>
    s.hand (AttachmentsService.getForStaff (StorageService.read s.blobs fails) s.sync.db staff attachmentId)
  | .getForReporter fails ctx issueId attachmentId =>
    s.hand (ReporterService.getAttachmentForReporter (StorageService.read s.blobs fails) s.sync.db ctx issueId
      attachmentId)
  | .elsewhere db => s.setDb { db with attachments := s.sync.db.attachments }

/-- The keys that an intake draws for its files are its own. -/
def DistinctKeys (s : Quarantine) : Action clamd → Prop
  | .intake env _ _ _ => ReporterService.FreshKeys s.blobs env.saves
  | _ => True

def Wholesome (clamd : Clamd) (buffer : List UInt8) (contentType : String) : Prop :=
  clamd.passes buffer ∧ MagicBytes.sniffAllowedMime buffer = some contentType

/-- What is known of an attachment, wherever it was read: the type is that of its bytes, and clean is what the
scanner called these bytes. -/
def Vetted (clamd : Clamd) (blobs : List Blob) (a : Attachment) : Prop :=
  a.scanStatus ≠ .skipped ∧ ∀ b ∈ blobs, b.storageKey = a.storageKey →
    MagicBytes.sniffAllowedMime b.buffer = some a.contentType ∧ (a.scanStatus = .clean → clamd.passes b.buffer)

/-- A loaded attachment and its row agree on what never changes. -/
def Loaded (clamd : Clamd) (s : Quarantine) (a : Attachment) : Prop :=
  Vetted clamd s.blobs a ∧ ∃ row, s.sync.db.attachments.findOne a.id = some row ∧
    row.storageKey = a.storageKey ∧ row.contentType = a.contentType

structure Inv (clamd : Clamd) (s : Quarantine) : Prop where
  keys : (s.blobs.map Blob.storageKey).Nodup
  rows : ∀ a ∈ s.sync.db.attachments.rows, Vetted clamd s.blobs a
  stored : ∀ a ∈ s.sync.db.attachments.rows, ∃ b ∈ s.blobs, b.storageKey = a.storageKey
  scans : ∀ run, ∀ r ∈ s.sync.scans run, ∀ a ∈ r.left, Loaded clamd s a
  reread : ∀ run a rest row, s.sync.scans run = some ⟨a :: rest, .reread row⟩ → Loaded clamd s row ∧ row.id = a.id
  pushes : ∀ run, ∀ r ∈ s.sync.pushes run, ∀ a ∈ r.left, Loaded clamd s a
  claimed : ∀ run a rest phase, s.sync.pushes run = some ⟨a :: rest, phase⟩ → phase ≠ .loaded →
    a.scanStatus ∈ servableScanStatuses
  buffered : ∀ run a rest n, s.sync.pushes run = some ⟨a :: rest, .attempting n⟩ →
    Wholesome clamd (s.buffers run) a.contentType
  released : ∀ file ∈ s.released, Wholesome clamd file.buffer file.contentType

variable {s t : Quarantine} {a row : Attachment}

theorem Vetted.wholesome {blobs : List Blob} (h : Vetted clamd blobs a) (hservable : a.scanStatus ∈ servableScanStatuses)
    {fails : Bool} {buffer : List UInt8} (hread : StorageService.read blobs fails a.storageKey = .ok buffer) :
    Wholesome clamd buffer a.contentType := by
  obtain ⟨b, hb, hkey, rfl⟩ := StorageService.read_ok hread
  obtain ⟨hsniffed, hpasses⟩ := h.2 b hb hkey
  simp only [servableScanStatuses, List.mem_cons, List.not_mem_nil, or_false] at hservable
  exact ⟨hpasses (hservable.resolve_right h.1), hsniffed⟩

theorem Vetted.withSynced {blobs : List Blob} (synced : Bool) (h : Vetted clamd blobs a) :
    Vetted clamd blobs (a.withSynced synced) := h

theorem Vetted.scanned {blobs : List Blob} (h : Vetted clamd blobs a) {status : Option ScanStatus}
    (hskipped : status ≠ some .skipped)
    (hclean : status = some .clean → ∀ b ∈ blobs, b.storageKey = a.storageKey → clamd.passes b.buffer) :
    Vetted clamd blobs (a.scanned status) := by
  constructor
  · intro hstatus
    cases status with
    | none => cases hstatus
    | some status => exact hskipped (congrArg some hstatus)
  · intro b hb hkey
    refine ⟨(h.2 b hb hkey).1, fun hstatus => ?_⟩
    cases status with
    | none => cases hstatus
    | some status => exact hclean (congrArg some hstatus) b hb hkey

theorem Vetted.savedOver {blobs : List Blob} {read : Attachment} (ha : Vetted clamd blobs a)
    (hrow : Vetted clamd blobs row) (hkey : a.storageKey = read.storageKey) (htype : a.contentType = read.contentType)
    (hsame : row.storageKey = a.storageKey) : Vetted clamd blobs (a.savedOver read row) := by
  have hstatus : (a.savedOver read row).scanStatus = row.scanStatus ∨
      (a.savedOver read row).scanStatus = a.scanStatus := by
    simp only [Attachment.savedOver, changed]
    split
    · exact .inl rfl
    · exact .inr rfl
  have hcolumns : (a.savedOver read row).storageKey = row.storageKey ∧
      (a.savedOver read row).contentType = row.contentType := by
    simp only [Attachment.savedOver, changed, hkey, htype, if_true, and_self]
  constructor
  · rcases hstatus with hstatus | hstatus
    · rw [hstatus]
      exact hrow.1
    · rw [hstatus]
      exact ha.1
  · rw [hcolumns.1, hcolumns.2]
    intro b hb hb'
    refine ⟨(hrow.2 b hb hb').1, fun hclean => ?_⟩
    rcases hstatus with hstatus | hstatus
    · exact (hrow.2 b hb hb').2 (hstatus ▸ hclean)
    · exact (ha.2 b hb (hb'.trans hsame)).2 (hstatus ▸ hclean)

/-- Rows keep their key and type for good, and a new blob is under a key that no row has. -/
structure Grows (s t : Quarantine) : Prop where
  blobs : ∀ b ∈ t.blobs, b ∈ s.blobs ∨ ∀ a ∈ s.sync.db.attachments.rows, a.storageKey ≠ b.storageKey
  rows : ∀ id row, s.sync.db.attachments.findOne id = some row → ∃ row', t.sync.db.attachments.findOne id = some row' ∧
    row'.storageKey = row.storageKey ∧ row'.contentType = row.contentType

theorem Vetted.grow (hgrows : Grows s t) (hrow : row ∈ s.sync.db.attachments.rows)
    (hkey : row.storageKey = a.storageKey) (h : Vetted clamd s.blobs a) : Vetted clamd t.blobs a := by
  refine ⟨h.1, fun b hb hb' => ?_⟩
  obtain hold | hnew := hgrows.blobs b hb
  · exact h.2 b hold hb'
  · exact absurd (hkey.trans hb'.symm) (hnew row hrow)

theorem Loaded.grow (hgrows : Grows s t) (h : Loaded clamd s a) : Loaded clamd t a := by
  obtain ⟨hvetted, row, hrow, hkey, htype⟩ := h
  obtain ⟨row', hrow', hkey', htype'⟩ := hgrows.rows a.id row hrow
  exact ⟨hvetted.grow hgrows (Table.mem_of_findOne hrow) hkey, row', hrow', hkey'.trans hkey, htype'.trans htype⟩

theorem Inv.loaded (h : Inv clamd s) (ha : a ∈ s.sync.db.attachments.rows) : Loaded clamd s a :=
  ⟨h.rows a ha, a, Table.findOne_of_mem ha, rfl, rfl⟩

theorem Inv.savedOver (h : Inv clamd s) {run : ℕ} {rest : List Attachment} {read : Attachment}
    (hrun : s.sync.scans run = some ⟨a :: rest, .reread read⟩) (hrow : s.sync.db.attachments.findOne a.id = some row) :
    Vetted clamd s.blobs (a.savedOver read row) ∧ (a.savedOver read row).storageKey = row.storageKey ∧
      (a.savedOver read row).contentType = row.contentType := by
  obtain ⟨hvetted, loaded, hloaded, hkey, htype⟩ := h.scans run _ hrun a List.mem_cons_self
  obtain ⟨⟨_, reread, hreread, hkey', htype'⟩, hid⟩ := h.reread run a rest read hrun
  rw [hrow] at hloaded
  rw [hid, hrow] at hreread
  cases hloaded
  cases hreread
  have hkeys : a.storageKey = read.storageKey := hkey.symm.trans hkey'
  have htypes : a.contentType = read.contentType := htype.symm.trans htype'
  refine ⟨hvetted.savedOver (h.rows row (Table.mem_of_findOne hrow)) hkeys htypes hkey, ?_, ?_⟩
  · simp [Attachment.savedOver, changed, hkeys]
  · simp [Attachment.savedOver, changed, htypes]

theorem Inv.row_apply (h : Inv clamd s) (act : AttachmentSync.Action) {id : Uuid}
    (hrow : s.sync.db.attachments.findOne id = some row) :
    ∃ row', (s.apply act).sync.db.attachments.findOne id = some row' ∧ Vetted clamd s.blobs row' ∧
      row'.storageKey = row.storageKey ∧ row'.contentType = row.contentType := by
  have hvetted := h.rows row (Table.mem_of_findOne hrow)
  obtain hdb | ⟨i, synced, hdb⟩ | ⟨run, a, rest, read, rfl, hrun, hdb⟩ := AttachmentSync.step_db s.sync act
  · exact ⟨row, by rw [apply, hdb, hrow], hvetted, rfl, rfl⟩
  · by_cases hid : id = i
    · refine ⟨row.withSynced synced, ?_, hvetted.withSynced synced, rfl, rfl⟩
      rw [apply, hdb, AttachmentSync.setSynced, Table.findOne_update, if_pos hid, hrow, Option.map_some]
    · refine ⟨row, ?_, hvetted, rfl, rfl⟩
      rw [apply, hdb, AttachmentSync.setSynced, Table.findOne_update, if_neg hid, hrow]
  · by_cases hid : id = a.id
    · obtain ⟨hsaved, hkey, htype⟩ := h.savedOver hrun (hid ▸ hrow)
      refine ⟨a.savedOver read row, ?_, hsaved, hkey, htype⟩
      rw [apply, hdb, AttachmentSync.saveOver, Table.findOne_update, if_pos hid, hrow, Option.map_some]
    · refine ⟨row, ?_, hvetted, rfl, rfl⟩
      rw [apply, hdb, AttachmentSync.saveOver, Table.findOne_update, if_neg hid, hrow]

theorem ids_apply (s : Quarantine) (act : AttachmentSync.Action) {id : Uuid}
    (hrow : (s.apply act).sync.db.attachments.findOne id = some row) :
    ∃ before, s.sync.db.attachments.findOne id = some before := by
  obtain hdb | ⟨i, synced, hdb⟩ | ⟨run, a, rest, read, rfl, hrun, hdb⟩ := AttachmentSync.step_db s.sync act
  · rw [apply, hdb] at hrow
    exact ⟨row, hrow⟩
  · rw [apply, hdb, AttachmentSync.setSynced, Table.findOne_update] at hrow
    split at hrow
    · obtain ⟨before, hbefore, _⟩ := Option.map_eq_some_iff.mp hrow
      exact ⟨before, hbefore⟩
    · exact ⟨row, hrow⟩
  · rw [apply, hdb, AttachmentSync.saveOver, Table.findOne_update] at hrow
    split at hrow
    · obtain ⟨before, hbefore, _⟩ := Option.map_eq_some_iff.mp hrow
      exact ⟨before, hbefore⟩
    · exact ⟨row, hrow⟩

theorem Inv.grows_apply (h : Inv clamd s) (act : AttachmentSync.Action) : Grows s (s.apply act) := by
  refine ⟨fun b hb => .inl hb, fun id row hrow => ?_⟩
  obtain ⟨row', hrow', _, hkey, htype⟩ := h.row_apply act hrow
  exact ⟨row', hrow', hkey, htype⟩

theorem Inv.apply (h : Inv clamd s) (act : AttachmentSync.Action)
    (hscan : ∀ run a rest verdict, act = .scan run (.scan verdict) → s.sync.scans run = some ⟨a :: rest, .loaded⟩ →
      Vetted clamd s.blobs (a.scanned verdict))
    (hread : ∀ run a rest, act = .push run (.readBytes false) → s.sync.pushes run = some ⟨a :: rest, .claimed⟩ →
      Wholesome clamd (s.buffers run) a.contentType) : Inv clamd (s.apply act) := by
  have hgrows := h.grows_apply act
  have hrow : ∀ id row', (s.apply act).sync.db.attachments.findOne id = some row' →
      ∃ row, s.sync.db.attachments.findOne id = some row ∧ Vetted clamd s.blobs row' ∧
        row'.storageKey = row.storageKey := by
    intro id row' hrow'
    obtain ⟨row, hrow⟩ := ids_apply s act hrow'
    obtain ⟨after, hafter, hvetted, hkey, _⟩ := h.row_apply act hrow
    rw [hrow'] at hafter
    cases hafter
    exact ⟨row, hrow, hvetted, hkey⟩
  constructor
  · exact h.keys
  · intro a ha
    obtain ⟨_, _, hvetted, _⟩ := hrow a.id a (Table.findOne_of_mem ha)
    exact hvetted
  · intro a ha
    obtain ⟨row, hbefore, _, hkey⟩ := hrow a.id a (Table.findOne_of_mem ha)
    rw [hkey]
    exact h.stored row (Table.mem_of_findOne hbefore)
  · intro run r hr a ha
    cases AttachmentSync.scans_effect s.sync act hr with
    | kept hsame => exact (h.scans run r hsame a ha).grow hgrows
    | loaded hleft => exact (h.loaded (hleft a ha)).grow hgrows
    | @scanned b rest verdict hrun hact =>
      have hhead := h.scans run _ hrun b List.mem_cons_self
      rcases List.mem_cons.mp ha with rfl | ha
      · exact Loaded.grow hgrows ⟨hscan run b rest verdict hact hrun, hhead.2⟩
      · exact (h.scans run _ hrun a (List.mem_cons_of_mem _ ha)).grow hgrows
    | reread hrun _ => exact (h.scans run _ hrun a ha).grow hgrows
    | saved hrun => exact (h.scans run _ hrun a (List.mem_cons_of_mem _ ha)).grow hgrows
  · intro run a rest row hr
    cases AttachmentSync.scans_effect s.sync act hr with
    | kept hsame =>
      obtain ⟨hloaded, hid⟩ := h.reread run a rest row hsame
      exact ⟨hloaded.grow hgrows, hid⟩
    | reread _ hfound => exact ⟨(h.loaded (Table.mem_of_findOne hfound)).grow hgrows, Table.findOne_key hfound⟩
  · intro run r hr a ha
    cases AttachmentSync.pushes_effect s.sync act hr with
    | kept hsame => exact (h.pushes run r hsame a ha).grow hgrows
    | loaded hleft => exact (h.loaded (hleft a ha)).grow hgrows
    | claimed hrun _ | read hrun _ | retried hrun | failed hrun _ => exact (h.pushes run _ hrun a ha).grow hgrows
    | done hrun => exact (h.pushes run _ hrun a (List.mem_cons_of_mem _ ha)).grow hgrows
  · intro run a rest phase hr hphase
    cases AttachmentSync.pushes_effect s.sync act hr with
    | kept hsame => exact h.claimed run a rest phase hsame hphase
    | loaded _ => exact absurd rfl hphase
    | claimed _ hservable => exact hservable
    | read hrun _ => exact h.claimed run a rest _ hrun (by simp)
    | retried hrun => exact h.claimed run a rest _ hrun (by simp)
    | failed hrun hnot => exact h.claimed run a rest _ hrun hnot
    | done _ => exact absurd rfl hphase
  · intro run a rest n hr
    cases AttachmentSync.pushes_effect s.sync act hr with
    | kept hsame => exact h.buffered run a rest n hsame
    | read hrun hact => exact hread run a rest hact hrun
    | retried hrun => exact h.buffered run a rest _ hrun
  · exact h.released

theorem Inv.scan (h : Inv clamd s) (run : ℕ) (fails : Bool) (conversation : Conversation clamd) :
    Inv clamd (s.scan run fails conversation) := by
  unfold Quarantine.scan
  split
  · rename_i a rest hrun
    have hvetted := (h.scans run _ hrun a List.mem_cons_self).1
    have happly : ∀ verdict, Vetted clamd s.blobs (a.scanned verdict) →
        Inv clamd (s.apply (.scan run (.scan verdict))) := by
      intro verdict hscanned
      apply h.apply
      · intro k b others v hact hk
        cases hact
        rw [hrun] at hk
        cases hk
        exact hscanned
      · intro k b others hact
        cases hact
    split
    · exact happly none (hvetted.scanned (by simp) (by simp))
    · rename_i buffer hbuffer
      split
      · exact h
      · rename_i status hstatus
        apply happly
        apply hvetted.scanned
        · intro hskipped
          cases hskipped
          exact ClamavScanService.scan_ne_skipped hstatus
        · intro hclean b hb hkey
          cases hclean
          obtain ⟨reply, hreply, hverdict⟩ := ClamavScanService.scan_clean hstatus
          obtain ⟨read, hread, hkey', rfl⟩ := StorageService.read_ok hbuffer
          rw [conversation.whole _ _ hreply] at hverdict
          rw [List.inj_on_of_nodup_map h.keys hb hread (hkey.trans hkey'.symm)]
          exact hverdict
  · exact h

theorem Inv.readBytes (h : Inv clamd s) (run : ℕ) (fails : Bool) : Inv clamd (s.readBytes run fails) := by
  unfold Quarantine.readBytes
  split
  · rename_i a rest hrun
    split
    · apply h.apply
      · intro k b others v hact
        cases hact
      · intro k b others hact
        cases hact
    · rename_i buffer hbuffer
      have hwholesome : Wholesome clamd buffer a.contentType :=
        (h.pushes run _ hrun a List.mem_cons_self).1.wholesome (h.claimed run a rest _ hrun (by simp)) hbuffer
      have hbuffered : Inv clamd { s with buffers := Function.update s.buffers run buffer } := by
        refine ⟨h.keys, h.rows, h.stored, h.scans, h.reread, h.pushes, h.claimed, fun k b others n hk => ?_, h.released⟩
        by_cases hsame : k = run
        · rw [hsame] at hk
          exact absurd (hrun.symm.trans hk) (by simp)
        · simp only [Function.update_of_ne hsame]
          exact h.buffered k b others n hk
      apply hbuffered.apply (.push run (.readBytes false))
      · intro k b others v hact
        cases hact
      · intro k b others hact hk
        cases hact
        have hsame := hrun.symm.trans hk
        cases hsame
        simp only [Function.update_self]
        exact hwholesome
  · exact h

theorem Inv.release (h : Inv clamd s) (file : ServableFile) (hfile : Wholesome clamd file.buffer file.contentType) :
    Inv clamd { s with released := s.released ++ [file] } := by
  refine ⟨h.keys, h.rows, h.stored, h.scans, h.reread, h.pushes, h.claimed, h.buffered, fun f hf => ?_⟩
  rcases List.mem_append.mp hf with hf | hf
  · exact h.released f hf
  · rw [List.mem_singleton.mp hf]
    exact hfile

theorem Inv.addAttachment (h : Inv clamd s) (run : ℕ) (accepted : Bool) : Inv clamd (s.addAttachment run accepted) := by
  unfold Quarantine.addAttachment
  split
  · rename_i a rest n hrun
    have hreleased := h.release ⟨s.buffers run, a.filename, a.contentType⟩ (h.buffered run a rest n hrun)
    apply hreleased.apply (.push run (.addAttachment accepted))
    · intro k b others v hact
      cases hact
    · intro k b others hact
      cases hact
  · exact h

theorem Inv.hand (h : Inv clamd s) {fails : Bool} {answer : Except HttpException ServableFile}
    (hanswer : ∀ file, answer = .ok file → Serves (StorageService.read s.blobs fails) s.sync.db file) :
    Inv clamd (s.hand answer) := by
  unfold Quarantine.hand
  split
  · exact h
  · rename_i file
    obtain ⟨a, ha, hservable, hread, htype⟩ := hanswer file rfl
    apply h.release
    rw [htype]
    exact (h.rows a ha).wholesome hservable hread

theorem Inv.extend (h : Inv clamd s) {blobs : List Blob} {db : Db} (hkeys : (blobs.map Blob.storageKey).Nodup)
    (hgrows : Grows s { s.setDb db with blobs := blobs })
    (hrows : ∀ a ∈ db.attachments.rows, Vetted clamd blobs a ∧ ∃ b ∈ blobs, b.storageKey = a.storageKey) :
    Inv clamd { s.setDb db with blobs := blobs } where
  keys := hkeys
  rows a ha := (hrows a ha).1
  stored a ha := (hrows a ha).2
  scans run r hr a ha := (h.scans run r hr a ha).grow hgrows
  reread run a rest row hr := ⟨(h.reread run a rest row hr).1.grow hgrows, (h.reread run a rest row hr).2⟩
  pushes run r hr a ha := (h.pushes run r hr a ha).grow hgrows
  claimed := h.claimed
  buffered := h.buffered
  released := h.released

theorem Inv.setDb (h : Inv clamd s) {db : Db} (hsame : db.attachments = s.sync.db.attachments) :
    Inv clamd (s.setDb db) := by
  apply h.extend h.keys
  · refine ⟨fun b hb => .inl hb, fun id row hrow => ⟨row, ?_, rfl, rfl⟩⟩
    simp only [Quarantine.setDb, hsame, hrow]
  · intro a ha
    rw [hsame] at ha
    exact ⟨h.rows a ha, h.stored a ha⟩

theorem attached_of_mem {issueId : Uuid} {files : List UploadedFile} {added : List (Attachment × Blob)}
    (h : List.Forall₂ (ReporterService.Attached issueId) files added) :
    ∀ p ∈ added, ∃ f, ReporterService.Attached issueId f p := by
  induction h with
  | nil =>
    intro p hp
    cases hp
  | cons hf _ ih =>
    intro p hp
    rcases List.mem_cons.mp hp with rfl | hp
    · exact ⟨_, hf⟩
    · exact ih p hp

theorem Inv.committed (h : Inv clamd s) {files : List UploadedFile} {stores : Stores} {issueId : Uuid}
    (hcommitted : ReporterService.Committed files ⟨s.blobs, s.sync.db⟩ stores issueId) :
    Inv clamd { s.setDb stores.db with blobs := stores.blobs } := by
  obtain ⟨added, hrows, hblobs, hattached, hdistinct, hfresh⟩ := hcommitted.attached
  have hnew := attached_of_mem hattached
  dsimp only at hrows hblobs hfresh
  have hgrows : Grows s { s.setDb stores.db with blobs := stores.blobs } := by
    constructor
    · intro b hb
      rw [hblobs] at hb
      rcases List.mem_append.mp hb with hb | hb
      · exact .inl hb
      · obtain ⟨p, hp, rfl⟩ := List.mem_map.mp hb
        refine .inr fun a ha hkey => ?_
        obtain ⟨b', hb', hkey'⟩ := h.stored a ha
        exact hfresh p hp b' hb' (hkey'.trans hkey)
    · intro id row hrow
      have hmem : row ∈ stores.db.attachments.rows := by
        rw [hrows]
        exact List.mem_append_left _ (Table.mem_of_findOne hrow)
      have hfind := Table.findOne_of_mem hmem
      rw [Table.findOne_key hrow] at hfind
      exact ⟨row, hfind, rfl, rfl⟩
  have hkeys : (stores.blobs.map Blob.storageKey).Nodup := by
    rw [hblobs, List.map_append, List.map_map]
    apply h.keys.append hdistinct
    intro key hold hadded
    obtain ⟨b, hb, rfl⟩ := List.mem_map.mp hold
    obtain ⟨p, hp, hkey⟩ := List.mem_map.mp hadded
    exact hfresh p hp b hb hkey.symm
  apply h.extend hkeys hgrows
  intro a ha
  rw [hrows] at ha
  rcases List.mem_append.mp ha with ha | ha
  · obtain ⟨b, hb, hkey⟩ := h.stored a ha
    refine ⟨(h.rows a ha).grow hgrows ha rfl, b, ?_, hkey⟩
    rw [hblobs]
    exact List.mem_append_left _ hb
  · obtain ⟨p, hp, rfl⟩ := List.mem_map.mp ha
    obtain ⟨f, hf⟩ := hnew p hp
    have hmem : p.2 ∈ stores.blobs := by
      rw [hblobs]
      exact List.mem_append_right _ (List.mem_map_of_mem hp)
    refine ⟨⟨by simp [hf.pending], fun b hb hkey => ?_⟩, p.2, hmem, hf.key.symm⟩
    obtain rfl := List.inj_on_of_nodup_map hkeys hb hmem (hkey.trans hf.key)
    rw [hf.buffer]
    exact ⟨hf.sniffed, fun hclean => absurd (hf.pending.symm.trans hclean) (by decide)⟩

theorem Inv.intake (h : Inv clamd s) (env : IntakeEnv) (ctx : HandoffContext) (dto : CreateIssueDto)
    (files : List UploadedFile) (hfresh : ReporterService.FreshKeys s.blobs env.saves) :
    Inv clamd (s.intake env ctx dto files) := by
  unfold Quarantine.intake
  generalize hstores : (ReporterService.createIssueWithFiles env ctx dto files ⟨s.blobs, s.sync.db⟩).stores = stores
  obtain ⟨issueId, hcommitted⟩ | ⟨hblobs, hattachments⟩ :=
    ReporterService.createIssueWithFiles_stores env ctx dto files ⟨s.blobs, s.sync.db⟩ hfresh
  · rw [hstores] at hcommitted
    exact h.committed hcommitted
  · rw [hstores] at hblobs hattachments
    dsimp only at hblobs ⊢
    rw [hblobs]
    exact h.setDb hattachments

theorem Inv.step (h : Inv clamd s) (act : Action clamd) (hdistinct : s.DistinctKeys act) : Inv clamd (s.step act) := by
  have happly : ∀ a : AttachmentSync.Action, (∀ run verdict, a ≠ .scan run (.scan verdict)) →
      (∀ run, a ≠ .push run (.readBytes false)) → Inv clamd (s.apply a) := by
    intro a hscan hread
    exact h.apply a (fun run _ _ verdict hact => absurd hact (hscan run verdict))
      (fun run _ _ hact => absurd hact (hread run))
  cases act with
  | tick d => exact happly _ (by simp) (by simp)
  | intake env ctx dto files => exact h.intake env ctx dto files hdistinct
  | pending run issueId => exact happly _ (by simp) (by simp)
  | sweep run => exact happly _ (by simp) (by simp)
  | scan run fails conversation => exact h.scan run fails conversation
  | reread run fails => exact happly _ (by simp) (by simp)
  | save run fails => exact happly _ (by simp) (by simp)
  | files run issueId => exact happly _ (by simp) (by simp)
  | claim run fails => exact happly _ (by simp) (by simp)
  | readBytes run fails => exact h.readBytes run fails
  | addAttachment run accepted => exact h.addAttachment run accepted
  | release run fails => exact happly _ (by simp) (by simp)
  | getForStaff fails staff attachmentId =>
    apply h.hand
    intro file hfile
    exact serves_of_getForStaff hfile
  | getForReporter fails ctx issueId attachmentId =>
    apply h.hand
    intro file hfile
    exact serves_of_getAttachmentForReporter hfile
  | elsewhere db => exact h.setDb rfl

theorem start_inv {db : Db} (clock : Time) (hnone : db.attachments = .empty) : Inv clamd (start db clock) where
  keys := List.nodup_nil
  rows a ha := by
    rw [start, AttachmentSync.start, hnone] at ha
    cases ha
  stored a ha := by
    rw [start, AttachmentSync.start, hnone] at ha
    cases ha
  scans run r hr := by cases hr
  reread run a rest row hr := by cases hr
  pushes run r hr := by cases hr
  claimed run a rest phase hr := by cases hr
  buffered run a rest n hr := by cases hr
  released file hfile := by cases hfile

/-- Whatever order scans, retries, pushes and downloads take, and whatever fails on the way, no infected file leaves
the deployment, and none under a type that its bytes do not open with. -/
theorem always_quarantined {infected : List UInt8 → Prop} {db : Db} {clock : Time} {as : List (Action clamd)}
    (hfinds : clamd.Finds infected) (hnone : db.attachments = .empty)
    (hkeys : EveryStep step DistinctKeys (start db clock) as) :
    Always step (fun s => ∀ file ∈ s.released, ¬ infected file.buffer ∧
      MagicBytes.sniffAllowedMime file.buffer = some file.contentType) (start db clock) as := by
  have hinv : Always step (Inv clamd) (start db clock) as :=
    always_of_everyStep (fun _ act h hdistinct => h.step act hdistinct) (start_inv clock hnone) hkeys
  apply hinv.mono
  intro s h file hfile
  obtain ⟨hpasses, hsniffed⟩ := h.released file hfile
  exact ⟨hfinds.not_infected hpasses, hsniffed⟩

end Quarantine

namespace Sample

def ascii (text : String) : List UInt8 := text.toList.map fun c => UInt8.ofNat c.toNat

def carriesEicar (buffer : List UInt8) : Prop := ascii "EICAR" <:+: buffer

instance (buffer : List UInt8) : Decidable (carriesEicar buffer) :=
  inferInstanceAs (Decidable (ascii "EICAR" <:+: buffer))

def clamd : Clamd where
  reply sent :=
    match Framing.read 4 (sent.drop ClamavScanService.command.length) with
    | some (data, []) => ascii (if carriesEicar data.flatten then "stream: Eicar-Signature FOUND" else "stream: OK")
    | _ => ascii "stream: ERROR"
  toText bytes := bytes.map fun b => Char.ofNat b.toNat

theorem clamd_finds : clamd.Finds carriesEicar := by
  intro frames data hread hcarries
  have hreply : clamd.reply (ClamavScanService.command ++ frames) = ascii "stream: Eicar-Signature FOUND" := by
    simp only [clamd, List.drop_left, hread, if_pos hcarries]
  rw [hreply]
  decide

/-- An answer in two pieces. -/
def conversation : Conversation clamd where
  events sent := [.data ((clamd.reply sent).take 4), .data ((clamd.reply sent).drop 4), .ended]
  whole sent reply h := by
    have hsettled := ClamavScanService.settle_data [] [(clamd.reply sent).take 4, (clamd.reply sent).drop 4] []
    have hsame := h.symm.trans hsettled
    simpa using hsame

end Sample

namespace Quarantine

def uploadAndServe : List (Action Sample.clamd) :=
  [.intake Sample.collidesOnce Sample.context ⟨"It does not load", none⟩ [Sample.photo], .pending 0 "issue",
    .getForStaff false Sample.admin "attachment", .scan 0 false Sample.conversation, .reread 0 false, .save 0 false,
    .getForStaff false Sample.admin "attachment"]

theorem always_quarantined_uploadAndServe :
    Always step (fun s => ∀ file ∈ s.released, ¬ Sample.carriesEicar file.buffer ∧
      MagicBytes.sniffAllowedMime file.buffer = some file.contentType) (start .empty 0) uploadAndServe :=
  always_quarantined Sample.clamd_finds rfl
    ⟨Sample.collidesOnce_fresh, trivial, trivial, trivial, trivial, trivial, trivial, trivial⟩

end Quarantine

end Cimp
