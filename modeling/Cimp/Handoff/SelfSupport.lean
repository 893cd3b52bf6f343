import Cimp.Handoff.Register

namespace Cimp

open Execution Json Utf16

namespace SelfSupportService

structure SignOptions where
  algorithm : String
  expiresIn : String

/-- The signing half of the token library; the last argument is its clock. -/
structure Signer (ν : Type) where
  sign : List (Text × Value ν) → String → SignOptions → ν → Text

variable {ν : Type}

/-- What signing adds to a payload. -/
def stamped (jwt : HandoffService.Jwt ν) (fields : List (Text × Value ν)) (options : SignOptions) (signedAt : ν) : Value ν :=
  .obj (fields ++ [(units "iat", .num signedAt), (units "exp", .num (jwt.timespan options.expiresIn signedAt))])

/-- A signed token decodes to its payload with the time and the end of its life, and verifies under the secret and
the algorithm it was signed with until it is too old. -/
structure Signer.Signs [LT ν] (signer : Signer ν) (jwt : HandoffService.Jwt ν) (fields : List (Text × Value ν))
    (secret : String) (options : SignOptions) (signedAt : ν) : Prop where
  present : signer.sign fields secret options signedAt ≠ []
  decode : jwt.decode (signer.sign fields secret options signedAt) = stamped jwt fields options signedAt
  verify : ∀ secret' (verifyOptions : HandoffService.VerifyOptions) claims,
    jwt.verify (signer.sign fields secret options signedAt) secret' verifyOptions = some claims ↔
      secret' = secret ∧ options.algorithm ∈ verifyOptions.algorithms ∧
        jwt.now < jwt.timespan options.expiresIn signedAt ∧ jwt.now < jwt.timespan verifyOptions.maxAge signedAt ∧
        claims = stamped jwt fields options signedAt

def platformKey (configured : Option String) : String := configured.getD "cimp"

def payload (platform : HandoffPlatform) (staff : AuthenticatedStaff) : List (Text × Value ν) :=
  [(units "platformKey", .str (units platform.key)), (units "portalUserId", .str (units ("staff:" ++ staff.id))),
    (units "name", .str (units staff.name)), (units "email", .str (units staff.email))]

def options : SignOptions := ⟨"HS256", "10m"⟩

/-- The token and the key of its platform. A key with U+0000 is refused by the database. -/
def mintForStaff (signer : Signer ν) (s : PlatformRegister) (configured : Option String) (staff : AuthenticatedStaff)
    (signedAt : ν) : Except HttpException (Text × String) :=
  let key := platformKey configured
  if '\x00' ∈ key.toList then .error .internalServerError
  else match s.platforms.rows.find? fun p => p.key = key with
    | none => .error (.notFound (s!"Self-support platform \"{key}\" not found. Create it in Admin → Platforms, " ++
        "or set SELF_SUPPORT_PLATFORM_KEY to an existing platform key."))
    | some platform =>
      if platform.status ≠ .active then .error (.badRequest s!"Self-support platform \"{key}\" is not active.")
      else .ok (signer.sign (payload platform.toHandoffPlatform staff) platform.handoffSecret options signedAt, platform.key)

def context (p : HandoffPlatform) (staff : AuthenticatedStaff) : HandoffService.Context ν :=
  ⟨p.id, p.key, ⟨.str (units ("staff:" ++ staff.id)), .str (units staff.name), .str (units staff.email), none⟩⟩

theorem units_isEmpty (s : String) : (units s).isEmpty = true ↔ s = "" := by
  rw [List.isEmpty_iff]
  constructor
  · intro h
    have hdecode := decode_encode s.toList
    rw [show encode s.toList = [] from h] at hdecode
    have hnil : s.toList = [] := (Option.some_inj.mp hdecode).symm
    simpa using hnil
  · rintro rfl
    rfl

theorem mint_cases {signer : Signer ν} {s : PlatformRegister} {configured : Option String} {staff : AuthenticatedStaff}
    {signedAt : ν} {token : Text} {key : String} (h : mintForStaff signer s configured staff signedAt = .ok (token, key)) :
    '\x00' ∉ key.toList ∧ ∃ p ∈ s.platforms.rows, p.key = key ∧ p.status = .active ∧
      token = signer.sign (payload p.toHandoffPlatform staff) p.handoffSecret options signedAt := by
  simp only [mintForStaff] at h
  split at h
  · cases h
  · rename_i hnul
    split at h
    · cases h
    · rename_i p hfound
      split at h
      · cases h
      · rename_i hactive
        cases h
        have hkey : p.key = platformKey configured := by simpa using List.find?_some hfound
        exact ⟨hkey ▸ hnul, p, List.mem_of_find?_eq_some hfound, rfl, by simpa using hactive, rfl⟩

variable {base : HandoffService.Env ν} {p : HandoffPlatform} {staff : AuthenticatedStaff} {signedAt : ν}

theorem truthy_units {env : HandoffService.Env ν} {s : String} :
    HandoffService.truthy env (some (.str (units s))) = true ↔ s ≠ "" := by
  rw [HandoffService.truthy, Bool.not_eq_true', ← Bool.not_eq_true, units_isEmpty]

theorem contextOf_stamped (hname : staff.name ≠ "") (hemail : staff.email ≠ "") {q : HandoffPlatform}
    {env : HandoffService.Env ν} :
    HandoffService.contextOf env q (stamped base.jwt (payload p staff) options signedAt) = .ok (context q staff) := by
  have hid : ("staff:" ++ staff.id) ≠ "" := by simp
  have hproperty (name : String) (v : Value ν)
      (h : HandoffService.property (stamped base.jwt (payload p staff) options signedAt) name = some v) :
      HandoffService.member (stamped base.jwt (payload p staff) options signedAt) name = .ok (some v) :=
    (HandoffService.member_of_property h name).trans (congrArg _ h)
  have hlocale : HandoffService.member (stamped base.jwt (payload p staff) options signedAt) "locale" = .ok none := rfl
  simp only [HandoffService.contextOf, hlocale, HandoffService.ok_bind,
    hproperty "exp" (.num (base.jwt.timespan "10m" signedAt)) rfl,
    hproperty "portalUserId" (.str (units ("staff:" ++ staff.id))) rfl, hproperty "name" (.str (units staff.name)) rfl,
    hproperty "email" (.str (units staff.email)) rfl, truthy_units.mpr hid, truthy_units.mpr hname,
    truthy_units.mpr hemail]
  rfl

theorem contextOf_refuses (h : staff.name = "" ∨ staff.email = "") {q : HandoffPlatform} {env : HandoffService.Env ν} :
    ∃ message, HandoffService.contextOf env q (stamped base.jwt (payload p staff) options signedAt) =
      .error (.unauthorized message) := by
  apply HandoffService.contextOf_refused ⟨"exp", _, rfl⟩
  rintro ⟨-, -, hemail, hname⟩
  obtain h | h := h
  · exact truthy_units.mp hname h
  · exact truthy_units.mp hemail h

theorem find_key {s : PlatformRegister} (hs : s.Inv) {q : PlatformEntity} (hq : q ∈ s.platforms.rows) :
    (s.env base).platforms.find? (fun p => p.key = q.key) = some q.toHandoffPlatform := by
  have hsome : ((s.env base).platforms.find? fun p => p.key = q.key).isSome = true := by
    rw [List.find?_isSome]
    exact ⟨q.toHandoffPlatform, List.mem_map.mpr ⟨q, hq, rfl⟩, by simp⟩
  obtain ⟨r, hr⟩ := Option.isSome_iff_exists.mp hsome
  obtain ⟨row, hrow, rfl⟩ := List.mem_map.mp (List.mem_of_find?_eq_some hr)
  have hkey : row.key = q.key := by simpa using List.find?_some hr
  rw [hr, List.inj_on_of_nodup_map hs.keys hrow hq hkey]

theorem verify_signed_iff [LT ν] {signer : Signer ν} {env : HandoffService.Env ν} (hjwt : env.jwt = base.jwt)
    (htext : ∀ s, env.text (.str (units s)) = s) (hnul : '\x00' ∉ p.key.toList)
    (hsigns : signer.Signs base.jwt (payload p staff) p.handoffSecret options signedAt) (ctx : HandoffService.Context ν) :
    HandoffService.verify env (signer.sign (payload p staff) p.handoffSecret options signedAt) = .ok ctx ↔
      p.key ≠ "" ∧ staff.name ≠ "" ∧ staff.email ≠ "" ∧ base.jwt.now < base.jwt.timespan "10m" signedAt ∧
        base.jwt.now < base.jwt.timespan "15m" signedAt ∧
        ∃ q, env.platforms.find? (fun q => q.key = p.key) = some q ∧ q.status = .active ∧
          q.handoffSecret = p.handoffSecret ∧ ctx = context q staff := by
  have hproperty : HandoffService.property (env.jwt.decode
      (signer.sign (payload p staff) p.handoffSecret options signedAt)) "platformKey" = some (.str (units p.key)) := by
    rw [hjwt, hsigns.decode]
    rfl
  have hfindOne : HandoffService.findOne env p.key = .ok (env.platforms.find? fun q => q.key = p.key) := if_neg hnul
  simp only [HandoffService.verify, if_neg hsigns.present, hproperty, Option.getD_some, htext, hfindOne,
    HandoffService.ok_bind]
  by_cases hkey : p.key = ""
  · refine iff_of_false (fun h => ?_) fun h => h.1 hkey
    rw [if_pos (by rw [Bool.not_eq_true', ← Bool.not_eq_true, truthy_units]; exact not_not.mpr hkey)] at h
    cases h
  · rw [if_neg (by rw [truthy_units.mpr hkey]; decide)]
    cases hfound : env.platforms.find? fun q => q.key = p.key with
    | none => simp
    | some q =>
      simp only [hjwt]
      split
      · rename_i hdisabled
        refine iff_of_false (fun h => by cases h) ?_
        rintro ⟨-, -, -, -, -, q', hq', hactive, -⟩
        exact hdisabled (Option.some_inj.mp hq' ▸ hactive)
      · rename_i hactive
        cases hverify : base.jwt.verify (signer.sign (payload p staff) p.handoffSecret options signedAt) q.handoffSecret
          HandoffService.options with
        | none =>
          refine iff_of_false (fun h => by cases h) ?_
          rintro ⟨-, -, -, hlife, hage, q', hq', -, hsecret, -⟩
          have hgood := (hsigns.verify q.handoffSecret HandoffService.options _).mpr
            ⟨Option.some_inj.mp hq' ▸ hsecret, by decide, hlife, hage, rfl⟩
          rw [hverify] at hgood
          cases hgood
        | some claims =>
          obtain ⟨hsecret, -, hlife, hage, rfl⟩ := (hsigns.verify _ _ _).mp hverify
          by_cases hnames : staff.name = "" ∨ staff.email = ""
          · obtain ⟨message, hrefused⟩ : ∃ message, HandoffService.contextOf env q
                (stamped base.jwt (payload p staff) options signedAt) = .error (.unauthorized message) :=
              contextOf_refuses hnames
            refine iff_of_false (fun h => ?_) ?_
            · cases hrefused.symm.trans h
            · rintro ⟨-, hname, hemail, -⟩
              exact hnames.elim hname hemail
          · obtain ⟨hname, hemail⟩ := not_or.mp hnames
            simp only [contextOf_stamped hname hemail]
            constructor
            · intro h
              cases h
              exact ⟨hkey, hname, hemail, hlife, hage, q, rfl, by simpa using hactive, hsecret, rfl⟩
            · rintro ⟨-, -, -, -, -, q', hq', -, -, rfl⟩
              rw [Option.some_inj.mp hq']

variable {α : Type} {number : α → Option ℚ}

/-- A member of staff who asks for a token at one moment of a run and uses it at a later one. -/
theorem verify_minted_iff [LT ν] {signer : Signer ν} (as bs : List (PlatformRegister.Action α))
    {configured : Option String} {token : Text} {key : String}
    (hmint : mintForStaff signer (exec (PlatformRegister.step number) .start as) configured staff signedAt =
      .ok (token, key))
    (hsigns : ∀ p ∈ (exec (PlatformRegister.step number) .start as).platforms.rows,
      signer.Signs base.jwt (payload p.toHandoffPlatform staff) p.handoffSecret options signedAt)
    (htext : ∀ s, base.text (.str (units s)) = s) (ctx : HandoffService.Context ν) :
    HandoffService.verify ((exec (PlatformRegister.step number) .start (as ++ bs)).env base) token = .ok ctx ↔
      key ≠ "" ∧ staff.name ≠ "" ∧ staff.email ≠ "" ∧ base.jwt.now < base.jwt.timespan "10m" signedAt ∧
        base.jwt.now < base.jwt.timespan "15m" signedAt ∧
        ∃ p ∈ (exec (PlatformRegister.step number) .start as).platforms.rows, p.key = key ∧
          ∃ q ∈ (exec (PlatformRegister.step number) .start (as ++ bs)).platforms.rows, q.key = key ∧
            q.status = .active ∧ q.handoffSecret = p.handoffSecret ∧ ctx = context q.toHandoffPlatform staff := by
  have hmintInv : (exec (PlatformRegister.step number) .start as).Inv :=
    exec_of_step PlatformRegister.step_inv PlatformRegister.start_inv as
  have hreadInv : (exec (PlatformRegister.step number) .start (as ++ bs)).Inv :=
    exec_of_step PlatformRegister.step_inv PlatformRegister.start_inv (as ++ bs)
  obtain ⟨hnul, p, hp, rfl, -, rfl⟩ := mint_cases hmint
  have hjwt : ((exec (PlatformRegister.step number) .start (as ++ bs)).env base).jwt = base.jwt := rfl
  rw [verify_signed_iff hjwt htext hnul (hsigns p hp) ctx]
  refine and_congr_right fun _ => and_congr_right fun _ => and_congr_right fun _ => and_congr_right fun _ =>
    and_congr_right fun _ => ?_
  constructor
  · rintro ⟨q, hq, hactive, hsecret, hctx⟩
    obtain ⟨row, hrow, rfl⟩ := List.mem_map.mp (List.mem_of_find?_eq_some hq)
    have hkey : row.key = p.key := by simpa using List.find?_some hq
    exact ⟨p, hp, rfl, row, hrow, hkey, hactive, hsecret, hctx⟩
  · rintro ⟨r, hr, hrkey, q, hq, hqkey, hactive, hsecret, hctx⟩
    have hsame : r = p := List.inj_on_of_nodup_map hmintInv.keys hr hp hrkey
    exact ⟨q.toHandoffPlatform, hqkey ▸ find_key hreadInv hq, hactive, hsame ▸ hsecret, hctx⟩

namespace Sample

/-- The portal after its first rotation. -/
def portal : PlatformEntity :=
  { id := "p-1", key := "portal-a", name := "Portal A", status := .active, handoffSecret := "secret",
    jiraProjectKey := none, jiraEnabled := false, slaPolicy := none, createdAt := 0 }

def minted : Text :=
  units ("eyJhbGciOiJIUzI1NiIsInR5cCI6IkpXVCJ9." ++
    "eyJwbGF0Zm9ybUtleSI6InBvcnRhbC1hIiwicG9ydGFsVXNlcklkIjoic3RhZmY6cm9vdCIsIm5hbWUiOiJSb290IiwiZW1haWwi" ++
    "OiJyb290QGNpbXAiLCJpYXQiOjEwMDAsImV4cCI6MTYwMH0." ++
    "U68cO4hJAH_HTwlW0WjIc7RooZh-SlsX25MNgv9YdfE")

def signer : Signer ℕ := ⟨fun _ _ _ _ => minted⟩

def ages (age : String) (time : ℕ) : ℕ := if age = "15m" then time + 900 else time + 600

def jwt : HandoffService.Jwt ℕ where
  decode _ := .obj (payload portal.toHandoffPlatform Cimp.Sample.owner ++
    [(units "iat", .num 1000), (units "exp", .num 1600)])
  verify _ secret options :=
    if secret = "secret" ∧ "HS256" ∈ options.algorithms ∧ 1060 < ages options.maxAge 1000 then
      some (.obj (payload portal.toHandoffPlatform Cimp.Sample.owner ++
        [(units "iat", .num 1000), (units "exp", .num 1600)]))
    else none
  signed _ secret algorithms := secret = "secret" ∧ "HS256" ∈ algorithms
  now := 1060
  timespan := ages

def reader : HandoffService.Env ℕ := ⟨jwt, (· == 0), HandoffService.Sample.asText, id, []⟩

theorem signs : signer.Signs jwt (payload portal.toHandoffPlatform Cimp.Sample.owner) "secret" options 1000 where
  present := by decide +kernel
  decode := rfl
  verify := by
    intro secret options claims
    simp only [signer, jwt, stamped, SelfSupportService.options, Option.ite_none_right_eq_some, Option.some_inj]
    constructor
    · rintro ⟨⟨hsecret, halgorithm, hage⟩, rfl⟩
      exact ⟨hsecret, halgorithm, by decide, hage, rfl⟩
    · rintro ⟨hsecret, halgorithm, -, hage, rfl⟩
      exact ⟨⟨hsecret, halgorithm, hage⟩, rfl⟩

end Sample

theorem verify_minted_iff_portal :
    HandoffService.verify ((exec (PlatformRegister.step some) .start (PlatformRegister.renameOverRotation.take 6 ++
      [.create 2 Cimp.Sample.owner ⟨"portal-c", "Portal C", none, none, none, none⟩ "third", .commit 2 "p-2" 3])).env
        Sample.reader) Sample.minted = .ok (context Sample.portal.toHandoffPlatform Cimp.Sample.owner) := by
  have hrows : (exec (PlatformRegister.step some) .start (PlatformRegister.renameOverRotation.take 6)).platforms.rows =
      [Sample.portal] := rfl
  have htext : ∀ s, Sample.reader.text (.str (units s)) = s := by
    intro s
    simp [Sample.reader, HandoffService.Sample.asText, units, decode_encode]
  have hmint : mintForStaff Sample.signer (exec (PlatformRegister.step some) .start
      (PlatformRegister.renameOverRotation.take 6)) (some "portal-a") Cimp.Sample.owner 1000 =
        .ok (Sample.minted, "portal-a") := by decide +kernel
  apply (verify_minted_iff _ _ hmint ?_ htext _).mpr
  · refine ⟨by decide, by decide, by decide, by decide, by decide, Sample.portal, ?_, rfl, Sample.portal, ?_, rfl, rfl,
      rfl, rfl⟩
    · exact List.mem_cons_self
    · exact List.mem_cons_self
  · rw [hrows]
    intro p hp
    obtain rfl := List.mem_singleton.mp hp
    exact Sample.signs

end SelfSupportService

end Cimp
