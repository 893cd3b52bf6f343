import Cimp.Authz.Scope
import Cimp.Lib.Execution
import Mathlib.Data.List.Count
import Mathlib.Data.List.Perm.Basic

namespace Cimp

open Execution

structure ApiToken where
  id : Uuid
  platform : Uuid
  name : String
  tokenHash : String
  lastFour : String
  createdBy : Option Uuid
  lastUsedAt : Option Time
  revokedAt : Option Time
  createdAt : Time
deriving DecidableEq, Repr

structure IntegrationIssueView where
  id : Uuid
  referenceNo : String
  status : IssueStatus
  priority : Priority
  description : String
  createdAt : Time
  updatedAt : Time
deriving DecidableEq, Repr

structure IntegrationIssuePage where
  data : List IntegrationIssueView
  total : ℕ
  page : ℕ
  pageSize : ℕ
deriving DecidableEq, Repr

/-- The metadata column of a token's audit rows. -/
structure ApiTokenMetadata where
  platformId : Uuid
  name : String
  lastFour : String
deriving DecidableEq, Repr

structure ApiTokenAudit extends AuditInput where
  metadata : ApiTokenMetadata
deriving DecidableEq, Repr

/-- What a request still has to do after its last statement; `read` is past the guard, which has loaded the
platform with the token and does not wait for `stampUsed`. -/
inductive ApiTokenRequest
  | auditCreated (token : ApiToken) (plaintext : String) (staff : AuthenticatedStaff)
  | saveRevoked (token : ApiToken) (staff : AuthenticatedStaff)
  | auditRevoked (token : ApiToken) (staff : AuthenticatedStaff)
  | stampUsed (tokenId : Uuid)
  | read (token : ApiToken) (platform : Platform) (raw : String)
deriving DecidableEq

/-- An answer to an integration, by the rows that it shows. -/
structure ServedIssues where
  token : ApiToken
  platform : Platform
  raw : String
  rows : List Issue

/-- `handed` and `served` are the answers given. The last two fields remember every row that was ever
inserted and every token that was ever revoked, and for whom. -/
structure Integrations where
  platforms : Table Platform.id
  issues : Table Issue.id
  apiTokens : Table ApiToken.id
  auditEvents : List ApiTokenAudit
  requests : List ApiTokenRequest
  handed : List (Uuid × String)
  served : List ServedIssues
  minted : List (ApiToken × AuthenticatedStaff)
  revoked : List (ApiToken × AuthenticatedStaff)

namespace ApiTokenGuard

def bearer (authorization : Option String) : String :=
  match authorization with
  | none => ""
  | some header => if "Bearer ".toList.isPrefixOf header.toList then String.ofList (header.toList.drop 7) else ""

def rawToken (authorization xApiToken : Option String) : String :=
  let bearer := bearer authorization
  if bearer ≠ "" then bearer else xApiToken.getD ""

end ApiTokenGuard

namespace ApiTokensService

def assertAccess (staff : AuthenticatedStaff) (platformId : Uuid) : Bool :=
  ScopeService.canAccessPlatform staff platformId staffWriteRoles

/-- `random` is what the 24 random bytes are in hexadecimal. -/
def plaintext (random : String) : String := "cimp_" ++ random

def lastFour (plaintext : String) : String := String.ofList (plaintext.toList.drop (plaintext.toList.length - 4))

def newToken (sha256 : String → String) (staff : AuthenticatedStaff) (platformId : Uuid) (name random : String) (id : Uuid)
    (now : Time) : ApiToken where
  id := id
  platform := platformId
  name := name
  tokenHash := sha256 (plaintext random)
  lastFour := lastFour (plaintext random)
  createdBy := staff.id
  lastUsedAt := none
  revokedAt := none
  createdAt := now

def metadata (token : ApiToken) : ApiTokenMetadata := ⟨token.platform, token.name, token.lastFour⟩

def createdAudit (token : ApiToken) (staff : AuthenticatedStaff) : ApiTokenAudit where
  issueId := none
  actorType := .staff
  actorId := staff.id
  action := "API_TOKEN_CREATED"
  field := "apiToken"
  newValue := token.id
  metadata := metadata token

def revokedAudit (token : ApiToken) (staff : AuthenticatedStaff) : ApiTokenAudit where
  issueId := none
  actorType := .staff
  actorId := staff.id
  action := "API_TOKEN_REVOKED"
  field := "apiToken"
  oldValue := token.id
  metadata := metadata token

/-- The row that the guard finds, if its platform is active. -/
def authenticate (sha256 : String → String) (s : Integrations) (raw : String) : Option (ApiToken × Platform) := do
  let token ← s.apiTokens.rows.find? fun t => t.tokenHash = sha256 raw && t.revokedAt = none
  let platform ← s.platforms.findOne token.platform
  if platform.status = .active then some (token, platform) else none

def issueView (i : Issue) : IntegrationIssueView :=
  ⟨i.id, i.referenceNo, i.status, i.priority, i.description, i.createdAt, i.updatedAt⟩

def issuesOf (s : Integrations) (platformId : Uuid) : List Issue := s.issues.rows.filter fun i => i.platform = platformId

/-- `Number(x) || fallback` for a query parameter that is a whole number. -/
def orElse (x fallback : ℤ) : ℤ := if x = 0 then fallback else x

def pageSizeOf (pageSize : ℤ) : ℕ := (min 100 (max 1 (orElse pageSize 50))).toNat

def pageOf (page : ℤ) : ℕ := (max 1 (orElse page 1)).toNat

/-- `order` is the platform's issues as the query orders them. -/
def pageRows (order : List Issue) (page pageSize : ℤ) : List Issue :=
  (order.drop ((pageOf page - 1) * pageSizeOf pageSize)).take (pageSizeOf pageSize)

def listIssueViews (order : List Issue) (page pageSize : ℤ) : IntegrationIssuePage :=
  ⟨(pageRows order page pageSize).map issueView, order.length, pageOf page, pageSizeOf pageSize⟩

def findIssue (s : Integrations) (platformId issueId : Uuid) : Option Issue :=
  (s.issues.findOne issueId).filter fun i => i.platform = platformId

def getIssue (s : Integrations) (platformId issueId : Uuid) : Except HttpException IntegrationIssueView :=
  match findIssue s platformId issueId with
  | none => .error (.notFound "Issue not found.")
  | some issue => .ok (issueView issue)

end ApiTokensService

namespace Integrations

/-- Each action is one statement of one request, or a failure in its place; an administrator's request writes a
platform in one. The rest of the program may do anything to the issues. -/
inductive Action
  | create (staff : AuthenticatedStaff) (platformId : Uuid) (name random : String) (id : Uuid) (now : Time)
  | revoke (staff : AuthenticatedStaff) (platformId tokenId : Uuid)
  | authorize (authorization xApiToken : Option String)
  | proceed (request : ℕ) (now : Time) (fails : Bool)
  | list (request : ℕ) (order : List Issue) (page pageSize : ℤ)
  | get (request : ℕ) (issueId : Uuid)
  | setStatus (platformId : Uuid) (status : PlatformStatus)
  | deletePlatform (platformId : Uuid)
  | issues (issues : Table Issue.id)

def start (platforms : Table Platform.id) (issues : Table Issue.id) : Integrations :=
  ⟨platforms, issues, .empty, [], [], [], [], [], []⟩

/-- A key, and a hash of 24 random bytes, that was used once is not drawn again. -/
def create (s : Integrations) (token : ApiToken) (plaintext : String) (staff : AuthenticatedStaff) : Integrations :=
  if s.minted.any (fun m => m.1.id = token.id || m.1.tokenHash = token.tokenHash) ||
      (s.platforms.findOne token.platform).isNone then s
  else match s.apiTokens.insert token with
    | none => s
    | some apiTokens => { s with
        apiTokens
        requests := s.requests ++ [.auditCreated token plaintext staff]
        minted := s.minted ++ [(token, staff)] }

def revoke (s : Integrations) (staff : AuthenticatedStaff) (platformId tokenId : Uuid) : Integrations :=
  match s.apiTokens.findOne tokenId with
  | none => s
  | some token =>
    if token.platform ≠ platformId ∨ token.revokedAt ≠ none then s
    else { s with requests := s.requests ++ [.saveRevoked token staff] }

def stamp (s : Integrations) (id : Uuid) (now : Time) : Table ApiToken.id :=
  s.apiTokens.update id (fun row => { row with lastUsedAt := some now }) fun _ => rfl

/-- `save` writes every column that differs, so also the stamp that the entity was loaded with. -/
def saved (s : Integrations) (token : ApiToken) (now : Time) : Table ApiToken.id :=
  s.apiTokens.update token.id (fun row => { row with lastUsedAt := token.lastUsedAt, revokedAt := some now }) fun _ => rfl

def proceed (s : Integrations) (request : ApiTokenRequest) (now : Time) : Integrations :=
  match request with
  | .auditCreated token plaintext staff => { s with
      auditEvents := s.auditEvents ++ [ApiTokensService.createdAudit token staff]
      handed := s.handed ++ [(token.id, plaintext)] }
  | .saveRevoked token staff =>
    -- a row that is gone went with its platform, and cannot be inserted again
    if (s.apiTokens.findOne token.id).isNone then s
    else { s with
      apiTokens := s.saved token now
      requests := s.requests ++ [.auditRevoked token staff]
      revoked := s.revoked ++ [(token, staff)] }
  | .auditRevoked token staff =>
    { s with auditEvents := s.auditEvents ++ [ApiTokensService.revokedAudit token staff] }
  | .stampUsed tokenId => { s with apiTokens := s.stamp tokenId now }
  | .read _ _ _ => s

def drop (s : Integrations) (i : ℕ) : Integrations := { s with requests := s.requests.eraseIdx i }

def serve (s : Integrations) (i : ℕ) (answer : ServedIssues) : Integrations :=
  { s.drop i with served := s.served ++ [answer] }

/-- The issues of the platform, newest first. -/
def Orders (s : Integrations) (platformId : Uuid) (order : List Issue) : Prop :=
  order.Perm (ApiTokensService.issuesOf s platformId) ∧
    order.Pairwise fun a b => b.createdAt ≤ a.createdAt

instance (s : Integrations) (platformId : Uuid) (order : List Issue) : Decidable (s.Orders platformId order) :=
  inferInstanceAs (Decidable (_ ∧ _))

def step (sha256 : String → String) (s : Integrations) : Action → Integrations
  | .create staff platformId name random id now =>
    if ApiTokensService.assertAccess staff platformId then
      s.create (ApiTokensService.newToken sha256 staff platformId name random id now)
        (ApiTokensService.plaintext random) staff
    else s
  | .revoke staff platformId tokenId =>
    if ApiTokensService.assertAccess staff platformId then s.revoke staff platformId tokenId else s
  | .authorize authorization xApiToken =>
    let raw := ApiTokenGuard.rawToken authorization xApiToken
    if raw = "" then s
    else match ApiTokensService.authenticate sha256 s raw with
      | none => s
      | some (token, platform) =>
        { s with requests := s.requests ++ [.stampUsed token.id] ++ [.read token platform raw] }
  | .proceed i now fails =>
    match s.requests[i]? with
    | none => s
    | some request => if fails then s.drop i else (s.drop i).proceed request now
  | .list i order page pageSize =>
    match s.requests[i]? with
    | some (.read token platform raw) =>
      if s.Orders platform.id order then s.serve i ⟨token, platform, raw, ApiTokensService.pageRows order page pageSize⟩
      else s
    | _ => s
  | .get i issueId =>
    match s.requests[i]? with
    | some (.read token platform raw) =>
      s.serve i ⟨token, platform, raw, (ApiTokensService.findIssue s platform.id issueId).toList⟩
    | _ => s
  | .setStatus platformId status =>
    { s with platforms := s.platforms.update platformId (fun p => { p with status }) fun _ => rfl }
  | .deletePlatform platformId =>
    if ApiTokensService.issuesOf s platformId = [] then
      { s with
        platforms := s.platforms.delete platformId
        apiTokens := s.apiTokens.filter fun t => t.platform ≠ platformId }
    else s
  | .issues issues => { s with issues }

/-- What no statement changes of a token. -/
structure SameToken (t t' : ApiToken) : Prop where
  id : t'.id = t.id
  platform : t'.platform = t.platform
  tokenHash : t'.tokenHash = t.tokenHash

def Minted (s : Integrations) (t : ApiToken) : Prop := ∃ m ∈ s.minted, SameToken m.1 t

def RevokedFor (s : Integrations) (t : ApiToken) : Prop :=
  ∃ r ∈ s.revoked, SameToken r.1 t ∧ ApiTokensService.assertAccess r.2 t.platform = true

def Opened (sha256 : String → String) (token : ApiToken) (platform : Platform) (raw : String) : Prop :=
  token.tokenHash = sha256 raw ∧ token.revokedAt = none ∧ platform.id = token.platform ∧ platform.status = .active

def creates (id : Uuid) : ApiTokenRequest → Bool
  | .auditCreated token _ _ => token.id = id
  | _ => false

def createdRows (s : Integrations) (id : Uuid) : ℕ :=
  s.auditEvents.countP fun e => e.action = "API_TOKEN_CREATED" && e.newValue = some id

def shown (s : Integrations) (id : Uuid) : ℕ := s.handed.countP fun h => h.1 = id

def Pending (sha256 : String → String) (s : Integrations) : ApiTokenRequest → Prop
  | .auditCreated token plaintext _ => s.Minted token ∧ token.tokenHash = sha256 plaintext
  | .saveRevoked token staff => s.Minted token ∧ ApiTokensService.assertAccess staff token.platform = true
  | .auditRevoked _ _ => True
  | .stampUsed _ => True
  | .read token platform raw => s.Minted token ∧ Opened sha256 token platform raw

structure Inv (sha256 : String → String) (s : Integrations) : Prop where
  keys : (s.minted.map fun m => m.1.id).Nodup
  hashes : (s.minted.map fun m => m.1.tokenHash).Nodup
  minters : ∀ m ∈ s.minted, ApiTokensService.assertAccess m.2 m.1.platform = true
  rows : ∀ t ∈ s.apiTokens.rows, s.Minted t ∧ (t.revokedAt ≠ none → s.RevokedFor t)
  pending : ∀ r ∈ s.requests, s.Pending sha256 r
  once : ∀ id, s.createdRows id + s.requests.countP (creates id) ≤ 1
  known : ∀ id, 0 < s.createdRows id + s.requests.countP (creates id) → ∃ m ∈ s.minted, m.1.id = id
  handed : ∀ h ∈ s.handed, ∃ m ∈ s.minted, m.1.id = h.1 ∧ m.1.tokenHash = sha256 h.2
  shown : ∀ id, s.shown id ≤ s.createdRows id
  served : ∀ r ∈ s.served, s.Minted r.token ∧ Opened sha256 r.token r.platform r.raw ∧
    ∀ i ∈ r.rows, i.platform = r.platform.id

variable {sha256 : String → String} {s : Integrations} {t t' : ApiToken} {now : Time}

theorem SameToken.refl (t : ApiToken) : SameToken t t := ⟨rfl, rfl, rfl⟩

theorem SameToken.trans {t'' : ApiToken} (h : SameToken t t') (h' : SameToken t' t'') : SameToken t t'' :=
  ⟨h'.id.trans h.id, h'.platform.trans h.platform, h'.tokenHash.trans h.tokenHash⟩

theorem Minted.same (h : s.Minted t) (hsame : SameToken t t') : s.Minted t' := by
  obtain ⟨m, hm, hminted⟩ := h
  exact ⟨m, hm, hminted.trans hsame⟩

theorem Inv.same_of_id (hs : Inv sha256 s) (ht : s.Minted t) (ht' : s.Minted t') (hid : t.id = t'.id) : SameToken t t' := by
  obtain ⟨m, hm, hsame⟩ := ht
  obtain ⟨m', hm', hsame'⟩ := ht'
  have hkey : m.1.id = m'.1.id := by rw [← hsame.id, ← hsame'.id, hid]
  have heq := List.inj_on_of_nodup_map hs.keys hm hm' hkey
  subst heq
  exact ⟨hid.symm, hsame'.platform.trans hsame.platform.symm, hsame'.tokenHash.trans hsame.tokenHash.symm⟩

theorem Inv.same_of_hash (hs : Inv sha256 s) (ht : s.Minted t) (ht' : s.Minted t') (hhash : t.tokenHash = t'.tokenHash) :
    t.id = t'.id := by
  obtain ⟨m, hm, hsame⟩ := ht
  obtain ⟨m', hm', hsame'⟩ := ht'
  have hkey : m.1.tokenHash = m'.1.tokenHash := by rw [← hsame.tokenHash, ← hsame'.tokenHash, hhash]
  have heq := List.inj_on_of_nodup_map hs.hashes hm hm' hkey
  rw [hsame.id, hsame'.id, heq]

theorem mem_stamp {id : Uuid} (h : t' ∈ (s.stamp id now).rows) :
    ∃ t ∈ s.apiTokens.rows, SameToken t t' ∧ t'.revokedAt = t.revokedAt := by
  obtain ⟨row, hrow, rfl⟩ := List.mem_map.mp h
  refine ⟨row, hrow, ?_, ?_⟩
  · split <;> exact ⟨rfl, rfl, rfl⟩
  · split <;> rfl

theorem mem_saved {token : ApiToken} (h : t' ∈ (s.saved token now).rows) :
    ∃ t ∈ s.apiTokens.rows, SameToken t t' ∧ (t'.revokedAt = t.revokedAt ∨ t.id = token.id ∧ t'.revokedAt ≠ none) := by
  obtain ⟨row, hrow, rfl⟩ := List.mem_map.mp h
  refine ⟨row, hrow, ?_, ?_⟩
  · split <;> exact ⟨rfl, rfl, rfl⟩
  · split
    · rename_i hid
      exact Or.inr ⟨hid, Option.some_ne_none _⟩
    · exact Or.inl rfl

theorem authenticate_opened {raw : String} {platform : Platform}
    (h : ApiTokensService.authenticate sha256 s raw = some (t, platform)) :
    t ∈ s.apiTokens.rows ∧ Opened sha256 t platform raw := by
  simp only [ApiTokensService.authenticate, Option.bind_eq_bind, Option.bind_eq_some_iff, Option.ite_none_right_eq_some,
    Option.some_inj, Prod.mk.injEq] at h
  obtain ⟨token, hfind, found, hplatform, hactive, rfl, rfl⟩ := h
  have hmatch := List.find?_some hfind
  simp only [Bool.and_eq_true, decide_eq_true_eq] at hmatch
  exact ⟨List.mem_of_find?_eq_some hfind, hmatch.1, hmatch.2, Table.findOne_key hplatform, hactive⟩

theorem countP_drop (s : Integrations) {i : ℕ} {r : ApiTokenRequest} (h : s.requests[i]? = some r)
    (p : ApiTokenRequest → Bool) :
    (s.drop i).requests.countP p + (if p r then 1 else 0) = s.requests.countP p := by
  obtain ⟨hlt, hr⟩ := List.getElem?_eq_some_iff.mp h
  have hperm := List.getElem_cons_eraseIdx_perm hlt
  rw [hr] at hperm
  rw [← hperm.countP_eq, List.countP_cons]
  rfl

theorem Inv.drop (hs : Inv sha256 s) (i : ℕ) : Inv sha256 (s.drop i) := by
  have hsub : (s.drop i).requests.Sublist s.requests := List.eraseIdx_sublist _ _
  constructor
  · exact hs.keys
  · exact hs.hashes
  · exact hs.minters
  · exact hs.rows
  · exact fun r hr => hs.pending r (hsub.subset hr)
  · exact fun id => Nat.le_trans (Nat.add_le_add_left (hsub.countP_le) _) (hs.once id)
  · exact fun id hpos => hs.known id (Nat.lt_of_lt_of_le hpos (Nat.add_le_add_left (hsub.countP_le) _))
  · exact hs.handed
  · exact hs.shown
  · exact hs.served

theorem Inv.push (hs : Inv sha256 s) {r : ApiTokenRequest} (hr : s.Pending sha256 r) (hcreates : ∀ id, creates id r = false) :
    Inv sha256 { s with requests := s.requests ++ [r] } := by
  have hcount : ∀ id, (s.requests ++ [r]).countP (creates id) = s.requests.countP (creates id) := by
    intro id
    rw [List.countP_append, List.countP_singleton, hcreates id]
    rfl
  constructor
  · exact hs.keys
  · exact hs.hashes
  · exact hs.minters
  · exact hs.rows
  · intro q hq
    obtain hold | rfl := List.mem_append.mp hq |>.imp_right List.mem_singleton.mp
    · exact hs.pending q hold
    · exact hr
  · exact fun id => hcount id ▸ hs.once id
  · exact fun id hpos => hs.known id (hcount id ▸ hpos)
  · exact hs.handed
  · exact hs.shown
  · exact hs.served

theorem Inv.withRows (hs : Inv sha256 s) (platforms : Table Platform.id) {apiTokens : Table ApiToken.id}
    (hrows : ∀ t' ∈ apiTokens.rows, ∃ t ∈ s.apiTokens.rows, SameToken t t' ∧
      (t'.revokedAt ≠ none → t.revokedAt ≠ none ∨ s.RevokedFor t')) :
    Inv sha256 { s with platforms, apiTokens } := by
  constructor
  · exact hs.keys
  · exact hs.hashes
  · exact hs.minters
  · intro t' ht'
    obtain ⟨t, ht, hsame, hrevoked⟩ := hrows t' ht'
    obtain ⟨hminted, hfor⟩ := hs.rows t ht
    refine ⟨hminted.same hsame, fun hgone => ?_⟩
    obtain hold | hnew := hrevoked hgone
    · obtain ⟨r, hr, hrsame, haccess⟩ := hfor hold
      refine ⟨r, hr, hrsame.trans hsame, ?_⟩
      rwa [hsame.platform]
    · exact hnew
  · exact hs.pending
  · exact hs.once
  · exact hs.known
  · exact hs.handed
  · exact hs.shown
  · exact hs.served

theorem Inv.create (hs : Inv sha256 s) {plaintext : String} {staff : AuthenticatedStaff}
    (hhash : t.tokenHash = sha256 plaintext) (hnew : t.revokedAt = none)
    (haccess : ApiTokensService.assertAccess staff t.platform = true) :
    Inv sha256 (s.create t plaintext staff) := by
  unfold Integrations.create
  split
  · exact hs
  · rename_i hfresh
    simp only [Bool.or_eq_true, not_or, List.any_eq_true, not_exists, not_and, decide_eq_true_eq] at hfresh
    obtain ⟨hfresh, -⟩ := hfresh
    split
    · exact hs
    · rename_i apiTokens hinsert
      have hmono : ∀ t', s.Minted t' → ∃ m ∈ s.minted ++ [(t, staff)], SameToken m.1 t' := by
        rintro t' ⟨m, hm, hsame⟩
        exact ⟨m, List.mem_append_left _ hm, hsame⟩
      have hself : ∃ m ∈ s.minted ++ [(t, staff)], SameToken m.1 t :=
        ⟨(t, staff), List.mem_append_right _ List.mem_cons_self, SameToken.refl t⟩
      -- the key is new, so that nothing counted was about it
      have hzero : s.createdRows t.id + s.requests.countP (creates t.id) = 0 := by
        by_contra hpos
        obtain ⟨m, hm, hid⟩ := hs.known t.id (Nat.pos_of_ne_zero hpos)
        exact (hfresh m hm).1 hid
      have hcount : ∀ id, (s.requests ++ [ApiTokenRequest.auditCreated t plaintext staff]).countP (creates id) =
          s.requests.countP (creates id) + if t.id = id then 1 else 0 := by
        intro id
        rw [List.countP_append, List.countP_singleton]
        simp [creates]
      constructor
      · simp only [List.map_append, List.map_cons, List.map_nil]
        apply List.nodup_append.mpr
        refine ⟨hs.keys, List.nodup_singleton _, ?_⟩
        intro id hid id' hid' heq
        obtain ⟨m, hm, rfl⟩ := List.mem_map.mp hid
        exact (hfresh m hm).1 (heq.trans (List.mem_singleton.mp hid'))
      · simp only [List.map_append, List.map_cons, List.map_nil]
        apply List.nodup_append.mpr
        refine ⟨hs.hashes, List.nodup_singleton _, ?_⟩
        intro hash hash₁ hash' hash₂ heq
        obtain ⟨m, hm, rfl⟩ := List.mem_map.mp hash₁
        exact (hfresh m hm).2 (heq.trans (List.mem_singleton.mp hash₂))
      · intro m hm
        obtain hold | rfl := List.mem_append.mp hm |>.imp_right List.mem_singleton.mp
        · exact hs.minters m hold
        · exact haccess
      · intro t' ht'
        obtain hold | rfl := (Table.mem_insert hinsert).mp ht'
        · obtain ⟨hminted, hfor⟩ := hs.rows t' hold
          exact ⟨hmono t' hminted, hfor⟩
        · exact ⟨hself, fun hrevoked => absurd hnew hrevoked⟩
      · intro r hr
        obtain hold | rfl := List.mem_append.mp hr |>.imp_right List.mem_singleton.mp
        · have hpending := hs.pending r hold
          cases r with
          | auditCreated token plaintext staff => exact ⟨hmono token hpending.1, hpending.2⟩
          | saveRevoked token staff => exact ⟨hmono token hpending.1, hpending.2⟩
          | auditRevoked token staff => trivial
          | stampUsed tokenId => trivial
          | read token platform raw => exact ⟨hmono token hpending.1, hpending.2⟩
        · exact ⟨hself, hhash⟩
      · intro id
        rw [hcount]
        show s.createdRows id + _ ≤ 1
        have honce := hs.once id
        split
        · rename_i hid
          subst hid
          omega
        · omega
      · intro id hpos
        rw [hcount] at hpos
        by_cases hid : t.id = id
        · exact ⟨(t, staff), List.mem_append_right _ List.mem_cons_self, hid⟩
        · rw [if_neg hid] at hpos
          obtain ⟨m, hm, hmid⟩ := hs.known id hpos
          exact ⟨m, List.mem_append_left _ hm, hmid⟩
      · intro h hh
        obtain ⟨m, hm, hmatch⟩ := hs.handed h hh
        exact ⟨m, List.mem_append_left _ hm, hmatch⟩
      · exact hs.shown
      · intro r hr
        obtain ⟨hminted, hserved⟩ := hs.served r hr
        exact ⟨hmono r.token hminted, hserved⟩

theorem Inv.saveRevoked (hs : Inv sha256 s) {staff : AuthenticatedStaff}
    (hpending : s.Pending sha256 (.saveRevoked t staff)) :
    Inv sha256 { s with apiTokens := s.saved t now, revoked := s.revoked ++ [(t, staff)] } := by
  have hwider : Inv sha256 { s with revoked := s.revoked ++ [(t, staff)] } := by
    refine ⟨hs.keys, hs.hashes, hs.minters, fun t' ht' => ?_, hs.pending, hs.once, hs.known, hs.handed, hs.shown, hs.served⟩
    obtain ⟨hminted, hfor⟩ := hs.rows t' ht'
    refine ⟨hminted, fun hrevoked => ?_⟩
    obtain ⟨r, hr, hsame⟩ := hfor hrevoked
    exact ⟨r, List.mem_append_left _ hr, hsame⟩
  refine hwider.withRows s.platforms fun t' ht' => ?_
  obtain ⟨row, hrow, hsame, hkept | ⟨hid, -⟩⟩ := mem_saved ht'
  · exact ⟨row, hrow, hsame, fun hrevoked => Or.inl (hkept ▸ hrevoked)⟩
  · have htoken := (hs.same_of_id hpending.1 (hs.rows row hrow).1 hid.symm).trans hsame
    refine ⟨row, hrow, hsame, fun _ => Or.inr ⟨(t, staff), List.mem_append_right _ List.mem_cons_self, htoken, ?_⟩⟩
    exact htoken.platform ▸ hpending.2

theorem Inv.stamp (hs : Inv sha256 s) (id : Uuid) (now : Time) : Inv sha256 { s with apiTokens := s.stamp id now } := by
  refine hs.withRows s.platforms fun t' ht' => ?_
  obtain ⟨row, hrow, hsame, hkept⟩ := mem_stamp ht'
  exact ⟨row, hrow, hsame, fun hrevoked => Or.inl (hkept ▸ hrevoked)⟩

theorem Inv.audited (hs : Inv sha256 s) {i : ℕ} {plaintext : String} {staff : AuthenticatedStaff}
    (h : s.requests[i]? = some (.auditCreated t plaintext staff)) :
    Inv sha256 ((s.drop i).proceed (.auditCreated t plaintext staff) now) := by
  obtain ⟨⟨m, hm, hsame⟩, hhash⟩ : s.Pending sha256 (.auditCreated t plaintext staff) :=
    hs.pending _ (List.mem_of_getElem? h)
  have hdrop := hs.drop i
  have hrows : ∀ id, ((s.drop i).proceed (.auditCreated t plaintext staff) now).createdRows id =
      s.createdRows id + if t.id = id then 1 else 0 := by
    intro id
    simp only [createdRows, Integrations.proceed, Integrations.drop, List.countP_append, List.countP_singleton]
    simp [ApiTokensService.createdAudit]
  have hcount := fun id => countP_drop s h (creates id)
  simp only [creates, decide_eq_true_eq] at hcount
  constructor
  · exact hs.keys
  · exact hs.hashes
  · exact hs.minters
  · exact hs.rows
  · exact hdrop.pending
  · intro id
    have honce := hs.once id
    have hdropped := hcount id
    rw [hrows]
    show _ + (s.drop i).requests.countP (creates id) ≤ 1
    omega
  · intro id hpos
    have hdropped := hcount id
    rw [hrows] at hpos
    change 0 < _ + (s.drop i).requests.countP (creates id) at hpos
    exact hs.known id (by omega)
  · intro handed hmem
    obtain hold | rfl := List.mem_append.mp hmem |>.imp_right List.mem_singleton.mp
    · exact hs.handed handed hold
    · exact ⟨m, hm, hsame.id.symm, hsame.tokenHash.symm.trans hhash⟩
  · intro id
    rw [hrows]
    have hshown := hs.shown id
    simp only [Integrations.shown, Integrations.proceed, Integrations.drop, List.countP_append, List.countP_singleton,
      decide_eq_true_eq] at hshown ⊢
    omega
  · exact hs.served

theorem Inv.proceed (hs : Inv sha256 s) {i : ℕ} {r : ApiTokenRequest} (h : s.requests[i]? = some r) (now : Time) :
    Inv sha256 ((s.drop i).proceed r now) := by
  have hpending := hs.pending r (List.mem_of_getElem? h)
  cases r with
  | auditCreated token plaintext staff => exact hs.audited h
  | saveRevoked token staff =>
    simp only [Integrations.proceed]
    split
    · exact hs.drop i
    · exact ((hs.drop i).saveRevoked hpending).push trivial fun _ => rfl
  | auditRevoked token staff =>
    have hrows : ∀ id, ((s.drop i).proceed (.auditRevoked token staff) now).createdRows id = s.createdRows id := by
      intro id
      simp only [createdRows, Integrations.proceed, Integrations.drop, List.countP_append, List.countP_singleton]
      simp [ApiTokensService.revokedAudit]
    have hdrop := hs.drop i
    constructor
    · exact hs.keys
    · exact hs.hashes
    · exact hs.minters
    · exact hs.rows
    · exact hdrop.pending
    · exact fun id => hrows id ▸ hdrop.once id
    · exact fun id hpos => hdrop.known id (hrows id ▸ hpos)
    · exact hs.handed
    · exact fun id => hrows id ▸ hs.shown id
    · exact hs.served
  | stampUsed tokenId => exact (hs.drop i).stamp tokenId now
  | read token platform raw => exact hs.drop i

theorem Inv.serve (hs : Inv sha256 s) {i : ℕ} {platform : Platform} {raw : String}
    (h : s.requests[i]? = some (.read t platform raw)) {rows : List Issue} (hrows : ∀ r ∈ rows, r.platform = platform.id) :
    Inv sha256 (s.serve i ⟨t, platform, raw, rows⟩) := by
  have hdrop := hs.drop i
  refine ⟨hs.keys, hs.hashes, hs.minters, hs.rows, hdrop.pending, hdrop.once, hdrop.known, hs.handed, hs.shown, ?_⟩
  intro answer hanswer
  obtain hold | rfl := List.mem_append.mp hanswer |>.imp_right List.mem_singleton.mp
  · exact hs.served answer hold
  · obtain ⟨hminted, hopened⟩ : s.Pending sha256 (.read t platform raw) := hs.pending _ (List.mem_of_getElem? h)
    exact ⟨hminted, hopened, hrows⟩

theorem step_inv (s : Integrations) (a : Action) (hs : Inv sha256 s) : Inv sha256 (step sha256 s a) := by
  cases a with
  | create staff platformId name random id now =>
    simp only [step]
    split
    · exact hs.create rfl rfl ‹_›
    · exact hs
  | revoke staff platformId tokenId =>
    simp only [step]
    split
    · rename_i haccess
      unfold Integrations.revoke
      split
      · exact hs
      · rename_i token hfind
        split
        · exact hs
        · rename_i hlive
          rw [not_or, not_not] at hlive
          refine hs.push ⟨(hs.rows token (Table.mem_of_findOne hfind)).1, ?_⟩ fun _ => rfl
          rwa [hlive.1]
    · exact hs
  | authorize authorization xApiToken =>
    simp only [step]
    split
    · exact hs
    · split
      · exact hs
      · rename_i token platform hauth
        have hstamps := hs.push (r := .stampUsed token.id) trivial fun _ => rfl
        obtain ⟨htoken, hopened⟩ := authenticate_opened hauth
        exact hstamps.push (r := .read token platform _) ⟨(hs.rows token htoken).1, hopened⟩ fun _ => rfl
  | proceed i now fails =>
    simp only [step]
    split
    · exact hs
    · split
      · exact hs.drop i
      · exact hs.proceed ‹_› now
  | list i order page pageSize =>
    simp only [step]
    split
    · rename_i token platform raw hread
      split
      · rename_i horder
        apply hs.serve hread
        intro issue hissue
        have hmem := horder.1.mem_iff.mp (List.mem_of_mem_drop (List.mem_of_mem_take hissue))
        exact of_decide_eq_true (List.mem_filter.mp hmem).2
      · exact hs
    · exact hs
  | get i issueId =>
    simp only [step]
    split
    · rename_i token platform raw hread
      apply hs.serve hread
      intro issue hissue
      exact of_decide_eq_true (Option.filter_eq_some_iff.mp (Option.mem_toList.mp hissue)).2
    · exact hs
  | setStatus platformId status =>
    exact hs.withRows _ fun t ht => ⟨t, ht, SameToken.refl t, Or.inl⟩
  | deletePlatform platformId =>
    simp only [step]
    split
    · exact hs.withRows _ fun t ht => ⟨t, List.mem_of_mem_filter ht, SameToken.refl t, Or.inl⟩
    · exact hs
  | issues issues =>
    exact ⟨hs.keys, hs.hashes, hs.minters, hs.rows, hs.pending, hs.once, hs.known, hs.handed, hs.shown, hs.served⟩

theorem start_inv (platforms : Table Platform.id) (issues : Table Issue.id) : Inv sha256 (start platforms issues) := by
  constructor
  · exact List.nodup_nil
  · exact List.nodup_nil
  · intro m hm
    cases hm
  · intro t ht
    cases ht
  · intro r hr
    cases hr
  · exact fun _ => Nat.zero_le _
  · intro id hpos
    cases hpos
  · intro h hh
    cases hh
  · exact fun _ => Nat.le_refl _
  · intro r hr
    cases hr

theorem Inv.shown_le_one (hs : Inv sha256 s) (id : Uuid) : s.shown id ≤ 1 :=
  (hs.shown id).trans ((Nat.le_add_right _ _).trans (hs.once id))

theorem Inv.handed_ids (hs : Inv sha256 s) : (s.handed.map Prod.fst).Nodup := by
  rw [List.nodup_iff_count_le_one]
  intro id
  rw [List.count, List.countP_map]
  exact hs.shown_le_one id

/-- Two rows of one plaintext would have one hash. -/
theorem Inv.handed_plaintexts (hs : Inv sha256 s) : (s.handed.map Prod.snd).Nodup := by
  have hids := hs.handed_ids
  refine List.Nodup.map_on ?_ (List.Nodup.of_map _ hids)
  intro h hh h' hh' heq
  obtain ⟨m, hm, hid, hhash⟩ := hs.handed h hh
  obtain ⟨m', hm', hid', hhash'⟩ := hs.handed h' hh'
  have hsame : m = m' := List.inj_on_of_nodup_map hs.hashes hm hm' (by rw [hhash, hhash', heq])
  exact Prod.ext (by rw [← hid, ← hid', hsame]) heq

/-- What an integration is ever shown, what a plaintext goes out with and how often, and who mints and revokes. -/
structure Sound (sha256 : String → String) (s : Integrations) : Prop where
  served : ∀ r ∈ s.served, s.Minted r.token ∧ Opened sha256 r.token r.platform r.raw ∧
    ∀ i ∈ r.rows, i.platform = r.token.platform
  handed : ∀ h ∈ s.handed, (∃ m ∈ s.minted, m.1.id = h.1 ∧ m.1.tokenHash = sha256 h.2) ∧ s.createdRows h.1 = 1
  once : (s.handed.map Prod.fst).Nodup ∧ (s.handed.map Prod.snd).Nodup
  minted : ∀ m ∈ s.minted, ApiTokensService.assertAccess m.2 m.1.platform = true
  revoked : ∀ t ∈ s.apiTokens.rows, t.revokedAt ≠ none → s.RevokedFor t

theorem Inv.sound (hs : Inv sha256 s) : Sound sha256 s := by
  constructor
  · intro r hr
    obtain ⟨hminted, hopened, hrows⟩ := hs.served r hr
    exact ⟨hminted, hopened, fun i hi => (hrows i hi).trans hopened.2.2.1⟩
  · intro h hh
    have hpos : 0 < s.shown h.1 := List.countP_pos_iff.mpr ⟨h, hh, decide_eq_true rfl⟩
    have hrows := hs.shown h.1
    have honce := hs.once h.1
    exact ⟨hs.handed h hh, by omega⟩
  · exact ⟨hs.handed_ids, hs.handed_plaintexts⟩
  · exact hs.minters
  · exact fun t ht => (hs.rows t ht).2

/-- However the statements of the requests interleave, and wherever they fail. -/
theorem always_sound (platforms : Table Platform.id) (issues : Table Issue.id) (as : List Action) :
    Always (step sha256) (Sound sha256) (start platforms issues) as :=
  (always_of_step step_inv (start_inv platforms issues) as).mono fun _ hs => hs.sound

/-- The hash was used, and no row that has it is live. -/
structure Spent (hash : String) (s : Integrations) : Prop where
  used : ∃ m ∈ s.minted, m.1.tokenHash = hash
  dead : ∀ t ∈ s.apiTokens.rows, t.tokenHash = hash → t.revokedAt ≠ none

theorem Spent.withRows {hash : String} (hs : Spent hash s) {s' : Integrations}
    (hrows : ∀ t' ∈ s'.apiTokens.rows, ∃ t ∈ s.apiTokens.rows, SameToken t t' ∧ (t.revokedAt ≠ none → t'.revokedAt ≠ none))
    (hminted : s'.minted = s.minted) : Spent hash s' := by
  constructor
  · rw [hminted]
    exact hs.used
  · intro t' ht' hhash
    obtain ⟨t, ht, hsame, hstays⟩ := hrows t' ht'
    exact hstays (hs.dead t ht (hsame.tokenHash.symm.trans hhash))

theorem Spent.kept {hash : String} (hs : Spent hash s) {s' : Integrations} (htokens : s'.apiTokens = s.apiTokens)
    (hminted : s'.minted = s.minted) : Spent hash s' :=
  hs.withRows (fun t ht => ⟨t, htokens ▸ ht, SameToken.refl t, id⟩) hminted

theorem Spent.proceed {hash : String} (hs : Spent hash s) (r : ApiTokenRequest) (now : Time) :
    Spent hash (s.proceed r now) := by
  cases r with
  | auditCreated token plaintext staff => exact hs.kept rfl rfl
  | saveRevoked token staff =>
    simp only [Integrations.proceed]
    split
    · exact hs
    · refine hs.withRows (fun t' ht' => ?_) rfl
      obtain ⟨row, hrow, hsame, hkept | ⟨-, hrevoked⟩⟩ := mem_saved ht'
      · exact ⟨row, hrow, hsame, fun hdead => hkept ▸ hdead⟩
      · exact ⟨row, hrow, hsame, fun _ => hrevoked⟩
  | auditRevoked token staff => exact hs.kept rfl rfl
  | stampUsed tokenId =>
    refine hs.withRows (fun t' ht' => ?_) rfl
    obtain ⟨row, hrow, hsame, hkept⟩ := mem_stamp ht'
    exact ⟨row, hrow, hsame, fun hdead => hkept ▸ hdead⟩
  | read token platform raw => exact hs

theorem Spent.create {hash : String} (hs : Spent hash s) (plaintext : String) (staff : AuthenticatedStaff) :
    Spent hash (s.create t plaintext staff) := by
  unfold Integrations.create
  split
  · exact hs
  · rename_i hfresh
    simp only [Bool.or_eq_true, not_or, List.any_eq_true, not_exists, not_and, decide_eq_true_eq] at hfresh
    split
    · exact hs
    · rename_i apiTokens hinsert
      obtain ⟨m, hm, hhash⟩ := hs.used
      constructor
      · exact ⟨m, List.mem_append_left _ hm, hhash⟩
      · intro t' ht' hspent
        obtain hold | rfl := (Table.mem_insert hinsert).mp ht'
        · exact hs.dead t' hold hspent
        · exact absurd (hhash.trans hspent.symm) (hfresh.1 m hm).2

theorem step_spent {hash : String} (s : Integrations) (a : Action) (hs : Spent hash s) : Spent hash (step sha256 s a) := by
  cases a with
  | create staff platformId name random id now =>
    simp only [step]
    split
    · exact hs.create _ _
    · exact hs
  | revoke staff platformId tokenId =>
    simp only [step, Integrations.revoke]
    split
    · split
      · exact hs
      · split
        · exact hs
        · exact hs.kept rfl rfl
    · exact hs
  | authorize authorization xApiToken =>
    simp only [step]
    split
    · exact hs
    · split
      · exact hs
      · exact hs.kept rfl rfl
  | proceed i now fails =>
    simp only [step]
    split
    · exact hs
    · split
      · exact hs.kept rfl rfl
      · have hdropped : Spent hash (s.drop i) := hs.kept rfl rfl
        exact hdropped.proceed _ now
  | list i order page pageSize =>
    simp only [step]
    split
    · split
      · exact hs.kept rfl rfl
      · exact hs
    · exact hs
  | get i issueId =>
    simp only [step]
    split
    · exact hs.kept rfl rfl
    · exact hs
  | setStatus platformId status => exact hs.kept rfl rfl
  | deletePlatform platformId =>
    simp only [step]
    split
    · exact hs.withRows (fun t ht => ⟨t, List.mem_of_mem_filter ht, SameToken.refl t, id⟩) rfl
    · exact hs
  | issues issues => exact hs.kept rfl rfl

theorem Spent.authenticate {raw : String} (hs : Spent (sha256 raw) s) : ApiTokensService.authenticate sha256 s raw = none := by
  apply Option.eq_none_iff_forall_ne_some.mpr
  rintro ⟨t, platform⟩ h
  obtain ⟨ht, hhash, hlive, -⟩ := authenticate_opened h
  exact hs.dead t ht hhash hlive

/-- A token that a run has revoked never opens anything again. -/
theorem always_revoked (platforms : Table Platform.id) (issues : Table Issue.id) (as bs : List Action) {raw : String}
    (ht : t ∈ (exec (step sha256) (start platforms issues) as).apiTokens.rows) (hrevoked : t.revokedAt ≠ none)
    (hraw : sha256 raw = t.tokenHash) :
    Always (step sha256) (fun s => ApiTokensService.authenticate sha256 s raw = none)
      (exec (step sha256) (start platforms issues) as) bs := by
  have hinv : Inv sha256 (exec (step sha256) (start platforms issues) as) :=
    exec_of_step step_inv (start_inv platforms issues) as
  obtain ⟨m, hm, hsame⟩ := (hinv.rows t ht).1
  have hspent : Spent (sha256 raw) (exec (step sha256) (start platforms issues) as) := by
    constructor
    · exact ⟨m, hm, by rw [hraw, hsame.tokenHash]⟩
    · intro t' ht' hhash
      have hid := hinv.same_of_hash (hinv.rows t' ht').1 (hinv.rows t ht).1 (hhash.trans hraw)
      rwa [List.inj_on_of_nodup_map (Table.nodup _) ht' ht hid]
  exact (always_of_step step_spent hspent bs).mono fun _ hs => hs.authenticate

end Integrations

namespace Sample

def tokenPlatforms : Table Platform.id := ⟨[⟨"cbs", "CBS", "Core Banking", .active⟩], by decide⟩

def tokenOwner : AuthenticatedStaff := ⟨"dev", "local:dev", "Dev", "dev@cimp", [⟨.developer, some "cbs"⟩]⟩

def grafanaRandom : String := "00112233445566778899aabbccddeeff0011223344556677"

def grafanaHash : String := "54ac5e6db79583652e2759bbea57ac96062d3d57b8514b984a0d58baded68c1c"

/-- What SHA-256 makes of the one plaintext that is used. -/
def sha256 (raw : String) : String := if raw = "cimp_" ++ grafanaRandom then grafanaHash else raw

/-- The guard loads the token before it is revoked and stamps it after. -/
def revokeToken : List Integrations.Action :=
  [.create tokenOwner "cbs" "Grafana" grafanaRandom "t1" 5, .proceed 0 5 false,
    .authorize (some ("Bearer cimp_" ++ grafanaRandom)) none, .revoke tokenOwner "cbs" "t1", .proceed 2 9 false,
    .proceed 0 10 false]

end Sample

namespace Integrations

theorem always_revoked_grafana :
    Always (step Sample.sha256)
      (fun s => ApiTokensService.authenticate Sample.sha256 s ("cimp_" ++ Sample.grafanaRandom) = none)
      (exec (step Sample.sha256) (start Sample.tokenPlatforms .empty) Sample.revokeToken)
      [.authorize (some ("Bearer cimp_" ++ Sample.grafanaRandom)) none] :=
  always_revoked (t := ⟨"t1", "cbs", "Grafana", Sample.grafanaHash, "6677", some "dev", some 10, some 9, 5⟩) _ _ _ _
    (by decide +kernel) (by decide) (by decide +kernel)

end Integrations

end Cimp
