import Cimp.Reporter.Intake

namespace Cimp

structure UploadedFile where
  originalname : String
  buffer : List UInt8
  size : ℕ
deriving DecidableEq, Repr

def maxFiles : ℕ := 5

def maxFileBytes : ℕ := 10 * 1024 * 1024

def allowedMimeTypes : List String := ["image/png", "image/jpeg", "image/webp", "application/pdf"]

namespace MagicBytes

def startsWith (buf bytes : List UInt8) (offset : ℕ) : Bool :=
  offset + bytes.length ≤ buf.length && (buf.drop offset).take bytes.length = bytes

structure Signature where
  mime : String
  test : List UInt8 → Bool

def signatures : List Signature := [
  ⟨"image/png", fun b => startsWith b [0x89, 0x50, 0x4e, 0x47, 0x0d, 0x0a, 0x1a, 0x0a] 0⟩,
  ⟨"image/jpeg", fun b => startsWith b [0xff, 0xd8, 0xff] 0⟩,
  ⟨"application/pdf", fun b => startsWith b [0x25, 0x50, 0x44, 0x46, 0x2d] 0⟩,
  ⟨"image/webp", fun b => startsWith b [0x52, 0x49, 0x46, 0x46] 0 && startsWith b [0x57, 0x45, 0x42, 0x50] 8⟩]

def sniffAllowedMime (buffer : List UInt8) : Option String :=
  if buffer.length = 0 then none
  else (signatures.find? fun sig => sig.test buffer).map Signature.mime

def missingSignatures : List String :=
  allowedMimeTypes.filter fun m => m ∉ signatures.map Signature.mime

theorem missingSignatures_eq_nil : missingSignatures = [] := by decide

theorem sniffAllowedMime_mem {buffer : List UInt8} {mime : String} (h : sniffAllowedMime buffer = some mime) :
    mime ∈ allowedMimeTypes := by
  unfold sniffAllowedMime at h
  split at h
  · cases h
  · obtain ⟨sig, hsig, rfl⟩ := Option.map_eq_some_iff.mp h
    have hmem := List.mem_of_find?_eq_some hsig
    have hall : ∀ sig ∈ signatures, sig.mime ∈ allowedMimeTypes := by decide
    exact hall sig hmem

end MagicBytes

/-- The error of a statement: a unique index that refuses the row (23505), or anything else. -/
inductive QueryFailed
  | uniqueViolation
  | other (message : String)
deriving DecidableEq, Repr

inductive IntakeError
  | http (e : HttpException)
  | reporter
  | storage
  | query (e : QueryFailed)
deriving DecidableEq, Repr

structure Blob where
  storageKey : String
  buffer : List UInt8
  contentType : String
deriving DecidableEq, Repr

structure StoredUpload where
  storageKey : String
  filename : String
  contentType : String
  sizeBytes : ℕ
deriving DecidableEq, Repr

structure Stores where
  blobs : List Blob
  db : Db

/-- What the environment decides about one run of `persistIssue`: the generated keys and the error
under the `k`-th statement, the commit being the last. -/
structure Attempt where
  now : Time
  issue : Uuid
  referenceNo : String
  attachment : ℕ → Uuid
  fails : ℕ → Option QueryFailed

/-- What the environment decides about one intake; `saves i` is the key under which the `i`-th file
was stored, `none` for a `save` that rejects. -/
structure IntakeEnv where
  reporter : Option Uuid
  saves : ℕ → Option String
  attempts : ℕ → Attempt

structure IntakeResult where
  answer : Except IntakeError Uuid
  stores : Stores
  attempts : ℕ

namespace StorageService

def delete (storageKey : String) (blobs : List Blob) : List Blob := blobs.filter fun b => b.storageKey ≠ storageKey

def deleteAll (storageKeys : List String) (blobs : List Blob) : List Blob :=
  storageKeys.foldl (fun blobs key => delete key blobs) blobs

end StorageService

namespace Transaction

/-- The body of a transaction with the error it stopped at; a statement that has no result ran into
a unique index. -/
def attempt (fails : ℕ → Option QueryFailed) : List (Statement Db) → Db → Except QueryFailed Db
  | [], db => match fails 0 with
    | some e => .error e
    | none => .ok db
  | q :: qs, db => match fails 0 with
    | some e => .error e
    | none => match q db with
      | none => .error .uniqueViolation
      | some saved => attempt (fun k => fails (k + 1)) qs saved

theorem body_of_attempt {fails : ℕ → Option QueryFailed} {qs : List (Statement Db)} {s t : Db}
    (h : attempt fails qs s = .ok t) : body (fun _ => false) qs s = some t := by
  induction qs generalizing fails s with
  | nil =>
    unfold attempt at h
    split at h
    · cases h
    · cases h
      rfl
  | cons q qs ih =>
    unfold attempt at h
    split at h
    · cases h
    split at h
    · cases h
    rename_i saved hsaved
    simp only [body, hsaved, Option.bind_some]
    exact ih h

end Transaction

namespace StorageService

theorem deleteAll_eq_filter (keys : List String) (blobs : List Blob) :
    deleteAll keys blobs = blobs.filter fun b => b.storageKey ∉ keys := by
  induction keys generalizing blobs with
  | nil => simp [deleteAll]
  | cons key keys ih =>
    have hstep : deleteAll (key :: keys) blobs = deleteAll keys (delete key blobs) := rfl
    rw [hstep, ih, delete, List.filter_filter]
    congr 1
    funext b
    simp [not_or, Bool.and_comm]

theorem deleteAll_append {keys : List String} {old new : List Blob} (hold : ∀ b ∈ old, b.storageKey ∉ keys)
    (hnew : ∀ b ∈ new, b.storageKey ∈ keys) : deleteAll keys (old ++ new) = old := by
  have hkept : old.filter (fun b => b.storageKey ∉ keys) = old :=
    List.filter_eq_self.mpr fun b hb => decide_eq_true (hold b hb)
  have hgone : new.filter (fun b => b.storageKey ∉ keys) = [] :=
    List.filter_eq_nil_iff.mpr fun b hb => by simpa using hnew b hb
  rw [deleteAll_eq_filter, List.filter_append, hkept, hgone, List.append_nil]

end StorageService

namespace ReporterService

def detectType (f : UploadedFile) : Except HttpException String :=
  if maxFileBytes < f.size then
    .error (.badRequest s!"\"{f.originalname}\" exceeds the {maxFileBytes / (1024 * 1024)} MB limit.")
  else match MagicBytes.sniffAllowedMime f.buffer with
    | none => .error (.badRequest
        s!"\"{f.originalname}\" content is not a supported file type (PNG, JPEG, WEBP, PDF).")
    | some sniffed =>
      if sniffed ∈ allowedMimeTypes then .ok sniffed
      else .error (.badRequest
        s!"\"{f.originalname}\" content is not a supported file type (PNG, JPEG, WEBP, PDF).")

def validateFiles (files : List UploadedFile) : Except HttpException (List String) :=
  if maxFiles < files.length then .error (.badRequest s!"At most {maxFiles} files may be attached.")
  else files.mapM detectType

/-- `Promise.allSettled` over the files: the blob and its record, `none` where `save` rejected. -/
def saveAll (saves : ℕ → Option String) (files : List UploadedFile) (detectedTypes : List String) :
    List (Option (Blob × StoredUpload)) :=
  (files.zip detectedTypes).mapIdx fun i f =>
    (saves i).map fun key => (⟨key, f.1.buffer, f.2⟩, ⟨key, f.1.originalname, f.2, f.1.size⟩)

def storedFiles (attempt : Attempt) (stored : List StoredUpload) : List StoredFile :=
  stored.mapIdx fun i s => ⟨attempt.attachment i, s.storageKey, s.filename, s.contentType, s.sizeBytes⟩

def persistIssueOnce (ctx : HandoffContext) (dto : CreateIssueDto) (reporter : Uuid) (stored : List StoredUpload)
    (attempt : Attempt) (db : Db) : Except QueryFailed (Uuid × Db) := do
  let saved ← Transaction.attempt attempt.fails (persistIssue attempt.now ctx dto reporter
    (storedFiles attempt stored) ⟨attempt.issue, reporter, attempt.referenceNo⟩) db
  return (attempt.issue, saved)

def maxAttempts : ℕ := 5

/-- The loop from an attempt on which `left` more may follow; it also counts its calls. -/
def retry (persist : ℕ → Except QueryFailed (Uuid × Db)) : ℕ → ℕ → Except QueryFailed (Uuid × Db) × ℕ
  | 0, attempt => (persist attempt, 1)
  | left + 1, attempt =>
    match persist attempt with
    | .ok saved => (.ok saved, 1)
    | .error .uniqueViolation =>
      let later := retry persist left (attempt + 1)
      (later.1, later.2 + 1)
    | .error e => (.error e, 1)

def createIssueWithUniqueReference (persist : ℕ → Except QueryFailed (Uuid × Db)) :
    Except QueryFailed (Uuid × Db) × ℕ :=
  retry persist (maxAttempts - 1) 1

def createIssueWithFiles (env : IntakeEnv) (ctx : HandoffContext) (dto : CreateIssueDto) (files : List UploadedFile)
    (s : Stores) : IntakeResult :=
  match validateFiles files with
  | .error e => ⟨.error (.http e), s, 0⟩
  | .ok detectedTypes =>
    match env.reporter.bind fun id => upsertReporter ctx id s.db with
    | none => ⟨.error .reporter, s, 0⟩
    | some (db, reporter) =>
      let results := saveAll env.saves files detectedTypes
      let written := results.filterMap id
      let blobs := s.blobs ++ written.map Prod.fst
      let keys := written.map fun r => r.2.storageKey
      if results.any Option.isNone then ⟨.error .storage, ⟨StorageService.deleteAll keys blobs, db⟩, 0⟩
      else
        let stored := written.map Prod.snd
        match createIssueWithUniqueReference fun k => persistIssueOnce ctx dto reporter stored (env.attempts k) db with
        | (.error e, n) =>
          ⟨.error (.query e), ⟨StorageService.deleteAll (stored.map StoredUpload.storageKey) blobs, db⟩, n⟩
        | (.ok (issueId, saved), n) => ⟨.ok issueId, ⟨blobs, saved⟩, n⟩

theorem detectType_ok {f : UploadedFile} {mime : String} (h : detectType f = .ok mime) :
    MagicBytes.sniffAllowedMime f.buffer = some mime := by
  unfold detectType at h
  split at h
  · cases h
  split at h
  · cases h
  rename_i sniffed hsniffed
  split at h
  · cases h
    exact hsniffed
  · cases h

theorem mapM_ok {α β ε : Type} {f : α → Except ε β} {xs : List α} {ys : List β} (h : xs.mapM f = .ok ys) :
    List.Forall₂ (fun x y => f x = .ok y) xs ys := by
  induction xs generalizing ys with
  | nil =>
    cases h
    exact .nil
  | cons x xs ih =>
    rw [List.mapM_cons] at h
    obtain ⟨y, hy, h⟩ := bind_ok h
    obtain ⟨rest, hrest, h⟩ := bind_ok h
    cases h
    exact .cons hy (ih hrest)

theorem validateFiles_ok {files : List UploadedFile} {types : List String} (h : validateFiles files = .ok types) :
    List.Forall₂ (fun f mime => MagicBytes.sniffAllowedMime f.buffer = some mime) files types := by
  unfold validateFiles at h
  split at h
  · cases h
  · exact (mapM_ok h).imp fun f mime hmime => detectType_ok hmime

theorem retry_spec (persist : ℕ → Except QueryFailed (Uuid × Db)) (left attempt : ℕ) :
    (∃ k, (retry persist left attempt).1 = persist k) ∧ (retry persist left attempt).2 ≤ left + 1 := by
  induction left generalizing attempt with
  | zero => exact ⟨⟨attempt, rfl⟩, Nat.le_refl _⟩
  | succ left ih =>
    unfold retry
    split
    · rename_i saved hsaved
      exact ⟨⟨attempt, hsaved.symm⟩, by simp⟩
    · obtain ⟨⟨k, hk⟩, hcount⟩ := ih (attempt + 1)
      exact ⟨⟨k, hk⟩, by simpa using hcount⟩
    · rename_i e _ he
      exact ⟨⟨attempt, he.symm⟩, by simp⟩

theorem insertAttachments_rows {now : Time} {issue : Uuid} {fails : ℕ → Bool} {stored : List StoredFile} {s t : Db}
    (h : Transaction.body fails (stored.map (insertAttachment now issue)) s = some t) :
    t.attachments.rows = s.attachments.rows ++ stored.map (newAttachment now issue) := by
  induction stored generalizing fails s with
  | nil =>
    cases h
    simp
  | cons f stored ih =>
    obtain ⟨m, hm, hrest⟩ := Transaction.body_cons h
    obtain ⟨attachments, hinsert, rfl⟩ := Option.map_eq_some_iff.mp hm
    rw [ih hrest, Table.rows_insert hinsert]
    simp

theorem persistIssue_attachments {now : Time} {ctx : HandoffContext} {dto : CreateIssueDto} {reporter : Uuid}
    {stored : List StoredFile} {ids : IntakeIds} {fails : ℕ → Bool} {s t : Db}
    (h : Transaction.body fails (persistIssue now ctx dto reporter stored ids) s = some t) :
    t.attachments.rows = s.attachments.rows ++ stored.map (newAttachment now ids.issue) := by
  obtain ⟨m, hm, hrest⟩ := Transaction.body_cons h
  obtain ⟨issues, _, rfl⟩ := insertIssue_some hm
  obtain ⟨m', hattach, haudit⟩ := Transaction.body_append hrest
  obtain ⟨m'', hrecord, hnil⟩ := Transaction.body_cons haudit
  cases hrecord
  cases hnil
  have hrows := insertAttachments_rows hattach
  exact hrows

structure Uploaded (f : UploadedFile) (w : Blob × StoredUpload) : Prop where
  sniffed : MagicBytes.sniffAllowedMime f.buffer = some w.1.contentType
  buffer : w.1.buffer = f.buffer
  stored : w.2 = ⟨w.1.storageKey, f.originalname, w.1.contentType, f.size⟩

theorem uploaded_of_saveAll (saves : ℕ → Option String) {files : List UploadedFile} {types : List String}
    (htypes : List.Forall₂ (fun f mime => MagicBytes.sniffAllowedMime f.buffer = some mime) files types) :
    List.Forall₂ (fun f r => ∀ w, r = some w → Uploaded f w) files (saveAll saves files types) := by
  obtain ⟨hlength, hsniffed⟩ := List.forall₂_iff_get.mp htypes
  apply List.forall₂_iff_get.mpr
  refine ⟨by simp [saveAll, hlength], ?_⟩
  intro i hfile hresult w hw
  simp only [saveAll, List.get_eq_getElem, List.getElem_mapIdx, List.getElem_zip, Option.map_eq_some_iff] at hw
  obtain ⟨key, _, rfl⟩ := hw
  exact ⟨hsniffed i hfile (hlength ▸ hfile), rfl, rfl⟩

theorem keys_of_saveAll (saves : ℕ → Option String) (files : List UploadedFile) (types : List String) :
    ((saveAll saves files types).filterMap id).map (fun r => r.1.storageKey) =
      (List.range (files.zip types).length).filterMap saves := by
  have hkeys : (saveAll saves files types).map (fun r => r.map fun w => w.1.storageKey) =
      (List.range (files.zip types).length).map saves := by
    apply List.ext_getElem
    · simp [saveAll]
    · intro i _ _
      simp [saveAll, Function.comp_def]
  have hpresent : ((saveAll saves files types).filterMap id).map (fun r => r.1.storageKey) =
      ((saveAll saves files types).map fun r => r.map fun w => w.1.storageKey).filterMap id := by
    rw [List.map_filterMap, List.filterMap_map]
    rfl
  rw [hpresent, hkeys, List.filterMap_map]
  rfl

theorem saveAll_stored {saves : ℕ → Option String} {files : List UploadedFile} {types : List String}
    {w : Blob × StoredUpload} (h : some w ∈ saveAll saves files types) : w.2.storageKey = w.1.storageKey := by
  obtain ⟨i, _, hi⟩ := List.mem_mapIdx.mp h
  obtain ⟨key, _, rfl⟩ := Option.map_eq_some_iff.mp hi
  rfl

structure FreshKeys (blobs : List Blob) (saves : ℕ → Option String) : Prop where
  unused : ∀ i key, saves i = some key → ∀ b ∈ blobs, b.storageKey ≠ key
  distinct : ∀ i j key, saves i = some key → saves j = some key → i = j

theorem eq_map_some {α : Type} {xs : List (Option α)} (h : xs.any Option.isNone = false) :
    xs = (xs.filterMap id).map some := by
  induction xs with
  | nil => rfl
  | cons x xs ih =>
    cases x with
    | none => simp at h
    | some x =>
      have hrest : xs.any Option.isNone = false := by simpa using h
      exact congrArg (some x :: ·) (ih hrest)

structure Attached (issueId : Uuid) (f : UploadedFile) (a : Attachment × Blob) : Prop where
  issue : a.1.issue = issueId
  sniffed : MagicBytes.sniffAllowedMime f.buffer = some a.1.contentType
  key : a.1.storageKey = a.2.storageKey
  buffer : a.2.buffer = f.buffer
  filename : a.1.filename = f.originalname
  sizeBytes : a.1.sizeBytes = f.size
  pending : a.1.scanStatus = .pending

structure Committed (files : List UploadedFile) (s t : Stores) (issueId : Uuid) : Prop where
  issue : ∃ row : Issue, row.id = issueId ∧ s.db.issues.insert row = some t.db.issues
  attached : ∃ added : List (Attachment × Blob),
    t.db.attachments.rows = s.db.attachments.rows ++ added.map Prod.fst ∧
    t.blobs = s.blobs ++ added.map Prod.snd ∧
    List.Forall₂ (Attached issueId) files added ∧
    (added.map fun a => a.2.storageKey).Nodup ∧ ∀ a ∈ added, ∀ b ∈ s.blobs, b.storageKey ≠ a.2.storageKey
  audited : ∃ e : AuditEvent, e.issue = some issueId ∧ e.action = "ISSUE_CREATED" ∧
    t.db.auditEvents = s.db.auditEvents ++ [e]

structure Rejected (s t : Stores) : Prop where
  issues : t.db.issues = s.db.issues
  attachments : t.db.attachments = s.db.attachments
  auditEvents : t.db.auditEvents = s.db.auditEvents
  blobs : t.blobs = s.blobs

theorem persistIssueOnce_ok {ctx : HandoffContext} {dto : CreateIssueDto} {reporter issueId : Uuid}
    {stored : List StoredUpload} {attempt : Attempt} {s t : Db}
    (h : persistIssueOnce ctx dto reporter stored attempt s = .ok (issueId, t)) :
    issueId = attempt.issue ∧ Transaction.body (fun _ => false) (persistIssue attempt.now ctx dto reporter
      (storedFiles attempt stored) ⟨attempt.issue, reporter, attempt.referenceNo⟩) s = some t := by
  obtain ⟨saved, hsaved, h⟩ := bind_ok h
  cases h
  exact ⟨rfl, Transaction.body_of_attempt hsaved⟩

def attach (attempt : Attempt) (written : List (Blob × StoredUpload)) : List (Attachment × Blob) :=
  written.mapIdx fun i w => (newAttachment attempt.now attempt.issue
    ⟨attempt.attachment i, w.2.storageKey, w.2.filename, w.2.contentType, w.2.sizeBytes⟩, w.1)

theorem attached_of_uploaded {files : List UploadedFile} {written : List (Blob × StoredUpload)} (attempt : Attempt)
    (h : List.Forall₂ Uploaded files written) :
    List.Forall₂ (Attached attempt.issue) files (attach attempt written) := by
  obtain ⟨hlength, huploaded⟩ := List.forall₂_iff_get.mp h
  apply List.forall₂_iff_get.mpr
  refine ⟨by simp [attach, hlength], ?_⟩
  intro i hfile hadded
  have hf := huploaded i hfile (hlength ▸ hfile)
  simp only [attach, List.get_eq_getElem, List.getElem_mapIdx] at hf ⊢
  have hstored := hf.stored
  constructor
  · rfl
  · simpa [newAttachment, hstored] using hf.sniffed
  · simp [newAttachment, hstored]
  · exact hf.buffer
  · simp [newAttachment, hstored]
  · simp [newAttachment, hstored]
  · rfl

theorem attach_fst (attempt : Attempt) (written : List (Blob × StoredUpload)) :
    (attach attempt written).map Prod.fst =
      (storedFiles attempt (written.map Prod.snd)).map (newAttachment attempt.now attempt.issue) := by
  apply List.ext_getElem
  · simp [attach, storedFiles]
  · intro i _ _
    simp [attach, storedFiles]

theorem attach_snd (attempt : Attempt) (written : List (Blob × StoredUpload)) :
    (attach attempt written).map Prod.snd = written.map Prod.fst := by
  apply List.ext_getElem
  · simp [attach]
  · intro i _ _
    simp [attach]

theorem deleteAll_written {blobs : List Blob} {saves : ℕ → Option String} (hfresh : FreshKeys blobs saves)
    (files : List UploadedFile) (types : List String) :
    let written := (saveAll saves files types).filterMap id
    StorageService.deleteAll (written.map fun r => r.2.storageKey) (blobs ++ written.map Prod.fst) = blobs := by
  intro written
  have hstored : (written.map fun r => r.2.storageKey) = written.map fun r => r.1.storageKey := by
    apply List.map_congr_left
    intro w hw
    obtain ⟨r, hr, rfl⟩ := List.mem_filterMap.mp hw
    exact saveAll_stored hr
  rw [hstored]
  apply StorageService.deleteAll_append
  · intro b hb hkey
    rw [keys_of_saveAll] at hkey
    obtain ⟨i, _, hi⟩ := List.mem_filterMap.mp hkey
    exact hfresh.unused i _ hi b hb rfl
  · intro b hb
    obtain ⟨w, hw, rfl⟩ := List.mem_map.mp hb
    exact List.mem_map.mpr ⟨w, hw, rfl⟩

theorem committed_of_persisted {ctx : HandoffContext} {dto : CreateIssueDto} {reporter issueId : Uuid}
    {attempt : Attempt} {files : List UploadedFile} {types : List String} {saves : ℕ → Option String} {s : Stores}
    {db saved : Db} (hfresh : FreshKeys s.blobs saves) (hvalid : validateFiles files = .ok types)
    (hall : (saveAll saves files types).any Option.isNone = false) (hissues : db.issues = s.db.issues)
    (hattachments : db.attachments = s.db.attachments) (haudit : db.auditEvents = s.db.auditEvents)
    (h : persistIssueOnce ctx dto reporter (((saveAll saves files types).filterMap id).map Prod.snd) attempt db =
      .ok (issueId, saved)) :
    Committed files s ⟨s.blobs ++ ((saveAll saves files types).filterMap id).map Prod.fst, saved⟩ issueId := by
  obtain ⟨rfl, hbody⟩ := persistIssueOnce_ok h
  have hkeys := keys_of_saveAll saves files types
  have huploaded := uploaded_of_saveAll saves (validateFiles_ok hvalid)
  rw [eq_map_some hall, List.forall₂_map_right_iff] at huploaded
  generalize hwritten : (saveAll saves files types).filterMap id = written at *
  have hfiles : List.Forall₂ Uploaded files written := huploaded.imp fun f w hw => hw w rfl
  have hadded : (attach attempt written).map (fun a => a.2.storageKey) = written.map fun w => w.1.storageKey := by
    have hblobs := congrArg (List.map Blob.storageKey) (attach_snd attempt written)
    rwa [List.map_map, List.map_map] at hblobs
  obtain ⟨hinsert, e, hissue, _, haction, haudited⟩ := persistIssue_spec hbody
  constructor
  · exact ⟨_, rfl, hissues ▸ hinsert⟩
  · refine ⟨attach attempt written, ?_, ?_, attached_of_uploaded attempt hfiles, ?_, ?_⟩
    · rw [attach_fst, ← hattachments]
      exact persistIssue_attachments hbody
    · rw [attach_snd]
    · rw [hadded, hkeys]
      exact List.Nodup.filterMap (fun i j key => hfresh.distinct i j key) List.nodup_range
    · intro a ha b hb
      have hkey : a.2.storageKey ∈ written.map fun w => w.1.storageKey := by
        rw [← hadded]
        exact List.mem_map.mpr ⟨a, ha, rfl⟩
      rw [hkeys] at hkey
      obtain ⟨i, _, hi⟩ := List.mem_filterMap.mp hkey
      exact hfresh.unused i _ hi b hb
  · exact ⟨e, hissue, haction, haudit ▸ haudited⟩

theorem intake_atomic (env : IntakeEnv) (ctx : HandoffContext) (dto : CreateIssueDto) (files : List UploadedFile)
    (s : Stores) (hfresh : FreshKeys s.blobs env.saves) :
    ((∃ issueId, (createIssueWithFiles env ctx dto files s).answer = .ok issueId ∧
        Committed files s (createIssueWithFiles env ctx dto files s).stores issueId) ∨
      (∃ e, (createIssueWithFiles env ctx dto files s).answer = .error e) ∧
        Rejected s (createIssueWithFiles env ctx dto files s).stores) ∧
      (createIssueWithFiles env ctx dto files s).attempts ≤ 5 := by
  cases hvalid : validateFiles files with
  | error e =>
    simp only [createIssueWithFiles, hvalid]
    exact ⟨.inr ⟨⟨_, rfl⟩, ⟨rfl, rfl, rfl, rfl⟩⟩, by simp⟩
  | ok types =>
    cases hreporter : env.reporter.bind fun id => upsertReporter ctx id s.db with
    | none =>
      simp only [createIssueWithFiles, hvalid, hreporter]
      exact ⟨.inr ⟨⟨_, rfl⟩, ⟨rfl, rfl, rfl, rfl⟩⟩, by simp⟩
    | some upserted =>
      obtain ⟨db, reporter⟩ := upserted
      obtain ⟨reporterId, _, hupsert⟩ := Option.bind_eq_some_iff.mp hreporter
      have hissues : db.issues = s.db.issues := upsertReporter_keeps (fun _ _ => rfl) hupsert
      have hattachments : db.attachments = s.db.attachments := upsertReporter_keeps (fun _ _ => rfl) hupsert
      have haudit : db.auditEvents = s.db.auditEvents := upsertReporter_keeps (fun _ _ => rfl) hupsert
      have hdeleted := deleteAll_written hfresh files types
      dsimp only at hdeleted
      simp only [createIssueWithFiles, hvalid, hreporter]
      cases hfailed : (saveAll env.saves files types).any Option.isNone with
      | true =>
        rw [if_pos rfl]
        exact ⟨.inr ⟨⟨_, rfl⟩, ⟨hissues, hattachments, haudit, hdeleted⟩⟩, by simp⟩
      | false =>
        rw [if_neg (by simp)]
        have hretry := retry_spec (fun k => persistIssueOnce ctx dto reporter
          (((saveAll env.saves files types).filterMap id).map Prod.snd) (env.attempts k) db) (maxAttempts - 1) 1
        obtain ⟨⟨k, hk⟩, hcount⟩ := hretry
        rw [createIssueWithUniqueReference]
        split
        · rename_i e n hresult
          rw [hresult] at hcount
          rw [List.map_map]
          exact ⟨.inr ⟨⟨_, rfl⟩, ⟨hissues, hattachments, haudit, hdeleted⟩⟩, hcount⟩
        · rename_i issueId saved n hresult
          rw [hresult] at hk hcount
          exact ⟨.inl ⟨issueId, rfl, committed_of_persisted hfresh hvalid hfailed hissues hattachments haudit hk.symm⟩,
            hcount⟩

end ReporterService

namespace Sample

def photo : UploadedFile := ⟨"screen.png", [0x89, 0x50, 0x4e, 0x47, 0x0d, 0x0a, 0x1a, 0x0a, 0x00], 9⟩

def report : UploadedFile := ⟨"report.pdf", [0x25, 0x50, 0x44, 0x46, 0x2d, 0x31, 0x2e, 0x37], 8⟩

def collidesOnce : IntakeEnv where
  reporter := some "reporter"
  saves := fun i => if i = 0 then some "blob.png" else if i = 1 then some "blob.pdf" else none
  attempts := fun k =>
    ⟨0, "issue", "SUP-1", fun i => if i = 0 then "first" else "second",
      fun _ => if k = 1 then some .uniqueViolation else none⟩

theorem collidesOnce_fresh : ReporterService.FreshKeys [] collidesOnce.saves := by
  constructor
  · intro i key _ b hb
    cases hb
  · intro i j key hi hj
    simp only [collidesOnce] at hi hj
    grind

end Sample

namespace ReporterService

theorem intake_atomic_collidesOnce :
    Committed [Sample.photo, Sample.report] ⟨[], .empty⟩ (createIssueWithFiles Sample.collidesOnce Sample.context
      ⟨"It does not load", none⟩ [Sample.photo, Sample.report] ⟨[], .empty⟩).stores "issue" := by
  have hanswer : (createIssueWithFiles Sample.collidesOnce Sample.context ⟨"It does not load", none⟩
      [Sample.photo, Sample.report] ⟨[], .empty⟩).answer = .ok "issue" := rfl
  rcases (intake_atomic Sample.collidesOnce Sample.context ⟨"It does not load", none⟩ [Sample.photo, Sample.report]
    ⟨[], .empty⟩ Sample.collidesOnce_fresh).1 with ⟨issueId, hok, h⟩ | ⟨⟨e, he⟩, _⟩
  · rw [hanswer] at hok
    cases hok
    exact h
  · rw [hanswer] at he
    cases he

theorem createIssueWithFiles_db (env : IntakeEnv) (ctx : HandoffContext) (dto : CreateIssueDto)
    (files : List UploadedFile) (s : Stores) :
    ∃ env' stored ids, (createIssueWithFiles env ctx dto files s).stores.db =
      createIssue env' ctx dto stored ids s.db := by
  have hrefused : ∃ env' stored ids, s.db = createIssue env' ctx dto stored ids s.db :=
    ⟨{ now := 0, read := true }, [], ⟨"", "", ""⟩, rfl⟩
  cases hvalid : validateFiles files with
  | error e => simpa only [createIssueWithFiles, hvalid] using hrefused
  | ok types =>
    cases hreporter : env.reporter.bind fun id => upsertReporter ctx id s.db with
    | none => simpa only [createIssueWithFiles, hvalid, hreporter] using hrefused
    | some upserted =>
      obtain ⟨db, reporter⟩ := upserted
      obtain ⟨reporterId, _, hupsert⟩ := Option.bind_eq_some_iff.mp hreporter
      have hreporterOnly : ∃ env' stored ids, db = createIssue env' ctx dto stored ids s.db := by
        refine ⟨{ now := 0, statement := fun _ => true }, [], ⟨"", reporterId, ""⟩, ?_⟩
        simp [createIssue, hupsert, persistIssue, Transaction.commit, Transaction.body]
      simp only [createIssueWithFiles, hvalid, hreporter]
      split
      · exact hreporterOnly
      · have hretry := (retry_spec (fun k => persistIssueOnce ctx dto reporter
          (((saveAll env.saves files types).filterMap id).map Prod.snd) (env.attempts k) db) (maxAttempts - 1) 1).1
        obtain ⟨k, hk⟩ := hretry
        rw [createIssueWithUniqueReference]
        split
        · exact hreporterOnly
        · rename_i issueId saved n hresult
          rw [hresult] at hk
          obtain ⟨_, hbody⟩ := persistIssueOnce_ok hk.symm
          refine ⟨{ now := (env.attempts k).now },
            storedFiles (env.attempts k) (((saveAll env.saves files types).filterMap id).map Prod.snd),
            ⟨(env.attempts k).issue, reporterId, (env.attempts k).referenceNo⟩, ?_⟩
          simp only [createIssue, hupsert]
          exact (Transaction.commit_of_some hbody).symm

end ReporterService

end Cimp
