import Cimp.Entities
import Cimp.Lib.Json

namespace Cimp

open Json Utf16

structure HandoffPlatform extends Platform where
  handoffSecret : String

namespace HandoffService

inductive Thrown
  | unauthorized (message : String)
  | typeError
  | queryFailed
deriving DecidableEq, Repr

structure VerifyOptions where
  algorithms : List String
  maxAge : String

/-- The token library. `decode` is `null` for what is no token, `verify` is `none` where it throws; `now` is its clock,
`timespan` the end of an age counted from a time. -/
structure Jwt (ν : Type) where
  decode : Text → Value ν
  verify : Text → String → VerifyOptions → Option (Value ν)
  signed : Text → String → List String → Prop
  now : ν
  timespan : String → ν → ν

def property (v : Value ν) (name : String) : Option (Value ν) :=
  match v with
  | .obj fields => fields.lookup (units name)
  | _ => none

structure Jwt.Documented [LT ν] (jwt : Jwt ν) : Prop where
  payload : ∀ token secret options claims, jwt.verify token secret options = some claims → jwt.decode token = claims
  signature : ∀ token secret options claims, jwt.verify token secret options = some claims →
    jwt.signed token secret options.algorithms
  age : ∀ token secret options claims, jwt.verify token secret options = some claims →
    ∃ iat, property claims "iat" = some (.num iat) ∧ jwt.now < jwt.timespan options.maxAge iat
  expiry : ∀ token secret options claims exp, jwt.verify token secret options = some claims →
    property claims "exp" = some (.num exp) → jwt.now < exp

/-- `zero` is `=== 0`, `text` what the database driver sends for a query parameter. -/
structure Env (ν : Type) where
  jwt : Jwt ν
  zero : ν → Bool
  text : Value ν → String
  toLowerCase : Text → Text
  platforms : List HandoffPlatform

structure Reporter (ν : Type) where
  portalUserId : Value ν
  name : Value ν
  email : Value ν
  locale : Option Text

structure Context (ν : Type) where
  platformId : Uuid
  platformKey : String
  reporter : Reporter ν

section

variable {ν : Type} (env : Env ν)

def truthy : Option (Value ν) → Bool
  | none | some .null => false
  | some (.bool b) => b
  | some (.num x) => !env.zero x
  | some (.str s) => !s.isEmpty
  | some (.arr _) | some (.obj _) => true

/-- `v.name`, which throws on `null`. -/
def member (v : Value ν) (name : String) : Except Thrown (Option (Value ν)) :=
  match v with
  | .null => .error .typeError
  | v => .ok (property v name)

def findOne (key : String) : Except Thrown (Option HandoffPlatform) :=
  if '\x00' ∈ key.toList then .error .queryFailed else .ok (env.platforms.find? (·.key = key))

def trimUnits (s : Text) : Text :=
  ((s.dropWhile fun u => isSpace (single u)).reverse.dropWhile fun u => isSpace (single u)).reverse

def replaceUnderscore : Text → Text
  | [] => []
  | u :: us => if u = 0x5F then 0x2D :: us else u :: replaceUnderscore us

def baseOf (s : Text) : Option Text :=
  let base := (replaceUnderscore (env.toLowerCase (trimUnits s))).takeWhile (· ≠ 0x2D)
  if 2 ≤ base.length ∧ base.length ≤ 3 ∧ base.all fun u => 0x61 ≤ u && u ≤ 0x7A then some base else none

def baseLocale (locale : Option (Value ν)) : Except Thrown (Option Text) :=
  if !truthy env locale then .ok none
  else match locale with
    | some (.str s) => .ok (baseOf env s)
    | _ => .error .typeError

def options : VerifyOptions := ⟨["HS256"], "15m"⟩

def contextOf (platform : HandoffPlatform) (claims : Value ν) : Except Thrown (Context ν) := do
  let exp ← member claims "exp"
  match exp with
  | some (.num _) =>
    let portalUserId ← member claims "portalUserId"
    let email ← member claims "email"
    let name ← member claims "name"
    if !truthy env portalUserId || !truthy env email || !truthy env name then
      .error (.unauthorized "Token missing required reporter claims")
    else
      let locale ← baseLocale env (← member claims "locale")
      .ok ⟨platform.id, platform.key, portalUserId.getD .null, name.getD .null, email.getD .null, locale⟩
  | _ => .error (.unauthorized "Hand-off token must have an expiry (exp).")

def verify (token : Text) : Except Thrown (Context ν) :=
  if token = [] then .error (.unauthorized "Missing hand-off token")
  else
    let platformKey := property (env.jwt.decode token) "platformKey"
    if !truthy env platformKey then .error (.unauthorized "Token missing platformKey claim")
    else do
      let platform ← findOne env (env.text (platformKey.getD .null))
      match platform with
      | none => .error (.unauthorized "Unknown or inactive platform")
      | some platform =>
        if platform.status ≠ .active then .error (.unauthorized "Unknown or inactive platform")
        else match env.jwt.verify token platform.handoffSecret options with
          | none => .error (.unauthorized "Invalid or expired hand-off token")
          | some claims => contextOf env platform claims

structure Accepted (token : Text) (platform : HandoffPlatform) (claims : Value ν) : Prop where
  present : token ≠ []
  key : truthy env (property (env.jwt.decode token) "platformKey") = true
  found : env.platforms.find?
    (·.key = env.text ((property (env.jwt.decode token) "platformKey").getD .null)) = some platform
  active : platform.status = .active
  verified : env.jwt.verify token platform.handoffSecret options = some claims
  exp : ∃ x, property claims "exp" = some (.num x)
  portalUserId : truthy env (property claims "portalUserId") = true
  email : truthy env (property claims "email") = true
  name : truthy env (property claims "name") = true

def usableLocale : Option (Value ν) → Option Text
  | some (.str s) => if s.isEmpty then none else baseOf env s
  | _ => none

structure Describes [LT ν] (token : Text) (platform : HandoffPlatform) (claims : Value ν) (ctx : Context ν) : Prop where
  row : platform ∈ env.platforms
  named : ∃ key, property claims "platformKey" = some key ∧ platform.key = env.text key
  decoded : env.jwt.decode token = claims
  signed : env.jwt.signed token platform.handoffSecret ["HS256"]
  age : ∃ iat, property claims "iat" = some (.num iat) ∧ env.jwt.now < env.jwt.timespan "15m" iat
  unexpired : ∃ exp, property claims "exp" = some (.num exp) ∧ env.jwt.now < exp
  platformId : ctx.platformId = platform.id
  platformKey : ctx.platformKey = platform.key
  portalUserId : property claims "portalUserId" = some ctx.reporter.portalUserId
  name : property claims "name" = some ctx.reporter.name
  email : property claims "email" = some ctx.reporter.email
  locale : ctx.reporter.locale = usableLocale env (property claims "locale")

def MeetsContract [LT ν] (token : Text) : Prop :=
  (∃ ctx platform claims, verify env token = .ok ctx ∧ Accepted env token platform claims ∧
      Describes env token platform claims ctx) ∨
    (∃ message, verify env token = .error (.unauthorized message)) ∧
      ∀ platform claims, ¬ Accepted env token platform claims

structure WellTyped (token : Text) : Prop where
  key : token ≠ [] → ∀ key, property (env.jwt.decode token) "platformKey" = some key → truthy env (some key) = true →
    '\x00' ∉ (env.text key).toList
  locale : ∀ platform claims locale, Accepted env token platform claims → property claims "locale" = some locale →
    truthy env (some locale) = true → ∃ s, locale = .str s

variable {env} {token : Text} {platform : HandoffPlatform} {claims : Value ν}

theorem ok_bind {ε α β : Type} (a : α) (f : α → Except ε β) : (Except.ok a >>= f) = f a := rfl

theorem member_of_property {name : String} {v : Value ν} (h : property claims name = some v) (other : String) :
    member claims other = .ok (property claims other) := by
  cases claims with
  | obj fields => rfl
  | null | bool b | num x | str s | arr items => cases h

theorem property_of_truthy {v : Value ν} {name : String} (h : truthy env (property v name) = true) :
    ∃ x, property v name = some x := by
  cases hproperty : property v name with
  | none =>
    rw [hproperty] at h
    cases h
  | some x => exact ⟨x, rfl⟩

theorem usableLocale_str (s : Text) : usableLocale env (some (.str s)) = if s.isEmpty then none else baseOf env s := rfl

theorem baseLocale_usable (locale : Option (Value ν))
    (h : ∀ l, locale = some l → truthy env (some l) = true → ∃ s, l = .str s) :
    baseLocale env locale = .ok (usableLocale env locale) := by
  by_cases htruthy : (!truthy env locale) = true
  · rw [baseLocale.eq_def, if_pos htruthy]
    cases locale with
    | none => rfl
    | some l =>
      cases l with
      | str s =>
        have hempty : s.isEmpty = true := by simpa [truthy] using htruthy
        rw [usableLocale_str, if_pos hempty]
      | null | bool b | num x | arr items | obj fields => rfl
  · rw [baseLocale.eq_def, if_neg htruthy]
    cases locale with
    | none => exact absurd rfl htruthy
    | some l =>
      have htrue : truthy env (some l) = true := by simpa using htruthy
      obtain ⟨s, rfl⟩ := h l rfl htrue
      have hnot : ¬ s.isEmpty = true := by simpa [truthy] using htrue
      rw [usableLocale_str, if_neg hnot]

theorem baseLocale_typeError {l : Value ν} (htruthy : truthy env (some l) = true) (h : ∀ s, l ≠ .str s) :
    baseLocale env (some l) = .error .typeError := by
  cases l with
  | str s => exact absurd rfl (h s)
  | null | bool b | num x | arr items | obj fields => simp [baseLocale, htruthy]

theorem contextOf_refused (hobject : ∃ name v, property claims name = some v)
    (h : ¬ ((∃ x, property claims "exp" = some (.num x)) ∧ truthy env (property claims "portalUserId") = true ∧
      truthy env (property claims "email") = true ∧ truthy env (property claims "name") = true)) :
    ∃ message, contextOf env platform claims = .error (.unauthorized message) := by
  obtain ⟨name, v, hv⟩ := hobject
  have hmember := member_of_property hv
  simp only [contextOf, hmember, ok_bind]
  split
  · rename_i x hexp
    refine ⟨_, if_pos ?_⟩
    by_contra hall
    simp only [Bool.or_eq_true, Bool.not_eq_true', not_or, Bool.not_eq_false] at hall
    exact h ⟨⟨x, hexp⟩, hall.1.1, hall.1.2, hall.2⟩
  · exact ⟨_, rfl⟩

theorem contextOf_accepted (h : Accepted env token platform claims) :
    contextOf env platform claims = (baseLocale env (property claims "locale")).map fun locale =>
      ⟨platform.id, platform.key, (property claims "portalUserId").getD .null, (property claims "name").getD .null,
        (property claims "email").getD .null, locale⟩ := by
  obtain ⟨x, hexp⟩ := h.exp
  have hmember := member_of_property hexp
  simp only [contextOf, hmember, ok_bind, hexp, h.portalUserId, h.email, h.name]
  cases baseLocale env (property claims "locale") <;> rfl

theorem verify_queryFailed (htoken : token ≠ []) {key : Value ν}
    (hkey : property (env.jwt.decode token) "platformKey" = some key) (htruthy : truthy env (some key) = true)
    (hnul : '\x00' ∈ (env.text key).toList) : verify env token = .error .queryFailed := by
  simp only [verify, if_neg htoken, hkey, htruthy, Option.getD_some, findOne, if_pos hnul]
  rfl

theorem verify_accepted (h : Accepted env token platform claims)
    (hnul : '\x00' ∉ (env.text ((property (env.jwt.decode token) "platformKey").getD .null)).toList) :
    verify env token = contextOf env platform claims := by
  simp only [verify, if_neg h.present, h.key, findOne, if_neg hnul, h.found, h.active, h.verified, ok_bind]
  rfl

theorem verify_refused [LT ν] (hjwt : env.jwt.Documented)
    (hkey : token ≠ [] → ∀ key, property (env.jwt.decode token) "platformKey" = some key →
      truthy env (some key) = true → '\x00' ∉ (env.text key).toList)
    (h : ∀ platform claims, ¬ Accepted env token platform claims) :
    ∃ message, verify env token = .error (.unauthorized message) := by
  simp only [verify]
  split_ifs with htoken htruthy
  · exact ⟨_, rfl⟩
  · exact ⟨_, rfl⟩
  · have htrue : truthy env (property (env.jwt.decode token) "platformKey") = true := by simpa using htruthy
    obtain ⟨key, hproperty⟩ := property_of_truthy htrue
    have hnul := hkey htoken key hproperty (hproperty ▸ htrue)
    simp only [hproperty, Option.getD_some, findOne, if_neg hnul, ok_bind]
    split
    · exact ⟨_, rfl⟩
    · rename_i platform hfound
      split_ifs with hactive
      · exact ⟨_, rfl⟩
      · split
        · exact ⟨_, rfl⟩
        · rename_i claims hverified
          have hdecode := hjwt.payload _ _ _ _ hverified
          apply contextOf_refused ⟨"platformKey", key, hdecode ▸ hproperty⟩
          rintro ⟨hexp, hportalUserId, hemail, hname⟩
          refine h platform claims ⟨htoken, htrue, ?_, by simpa using hactive, hverified, hexp, hportalUserId, hemail, hname⟩
          rw [hproperty, Option.getD_some]
          exact hfound

theorem describes_accepted [LT ν] (hjwt : env.jwt.Documented) (h : Accepted env token platform claims) :
    Describes env token platform claims
      ⟨platform.id, platform.key, (property claims "portalUserId").getD .null, (property claims "name").getD .null,
        (property claims "email").getD .null, usableLocale env (property claims "locale")⟩ := by
  have hdecode := hjwt.payload _ _ _ _ h.verified
  obtain ⟨exp, hexp⟩ := h.exp
  obtain ⟨key, hkey⟩ := property_of_truthy h.key
  obtain ⟨portalUserId, hportalUserId⟩ := property_of_truthy h.portalUserId
  obtain ⟨name, hname⟩ := property_of_truthy h.name
  obtain ⟨email, hemail⟩ := property_of_truthy h.email
  have hfound := h.found
  rw [hkey, Option.getD_some] at hfound
  have hnamed : platform.key = env.text key := by simpa using List.find?_some hfound
  exact {
    row := List.mem_of_find?_eq_some hfound
    named := ⟨key, hdecode ▸ hkey, hnamed⟩
    decoded := hdecode
    signed := hjwt.signature _ _ _ _ h.verified
    age := hjwt.age _ _ _ _ h.verified
    unexpired := ⟨exp, hexp, hjwt.expiry _ _ _ _ exp h.verified hexp⟩
    platformId := rfl
    platformKey := rfl
    portalUserId := by rw [hportalUserId, Option.getD_some]
    name := by rw [hname, Option.getD_some]
    email := by rw [hemail, Option.getD_some]
    locale := rfl }

theorem verify_meetsContract_iff [LT ν] (hjwt : env.jwt.Documented) (token : Text) :
    MeetsContract env token ↔ WellTyped env token := by
  constructor
  · intro h
    have hnul : token ≠ [] → ∀ key, property (env.jwt.decode token) "platformKey" = some key →
        truthy env (some key) = true → '\x00' ∉ (env.text key).toList := by
      intro htoken key hkey htruthy hmem
      have hfailed := verify_queryFailed htoken hkey htruthy hmem
      obtain ⟨ctx, platform, claims, hok, -⟩ | ⟨⟨message, herror⟩, -⟩ := h
      · rw [hfailed] at hok
        cases hok
      · rw [hfailed] at herror
        cases herror
    refine ⟨hnul, ?_⟩
    intro platform claims locale haccepted hlocale htruthy
    by_contra hnone
    obtain ⟨key, hkey⟩ := property_of_truthy haccepted.key
    have hverify := verify_accepted haccepted (by
      rw [hkey, Option.getD_some]
      exact hnul haccepted.present key hkey (hkey ▸ haccepted.key))
    rw [contextOf_accepted haccepted, hlocale,
      baseLocale_typeError htruthy fun s hs => hnone ⟨s, hs⟩] at hverify
    obtain ⟨ctx, platform', claims', hok, -⟩ | ⟨-, hrefused⟩ := h
    · rw [hverify] at hok
      cases hok
    · exact hrefused platform claims haccepted
  · intro h
    by_cases haccepted : ∃ platform claims, Accepted env token platform claims
    · obtain ⟨platform, claims, haccepted⟩ := haccepted
      obtain ⟨key, hkey⟩ := property_of_truthy haccepted.key
      have hverify := verify_accepted haccepted (by
        rw [hkey, Option.getD_some]
        exact h.key haccepted.present key hkey (hkey ▸ haccepted.key))
      rw [contextOf_accepted haccepted, baseLocale_usable _ fun l hl => h.locale platform claims l haccepted hl] at hverify
      exact .inl ⟨_, platform, claims, hverify, haccepted, describes_accepted hjwt haccepted⟩
    · have hrefused : ∀ platform claims, ¬ Accepted env token platform claims :=
        fun platform claims h => haccepted ⟨platform, claims, h⟩
      exact .inr ⟨verify_refused hjwt h.key hrefused, hrefused⟩

end

namespace Sample

def platform : HandoffPlatform := ⟨⟨"p-1", "portal-a", "Portal A", .active⟩, "secret"⟩

def claims (locale : List (Text × Value ℕ)) : Value ℕ :=
  .obj ([(units "platformKey", .str (units "portal-a")), (units "portalUserId", .str (units "u-1")),
    (units "name", .str (units "Asha Rao")), (units "email", .str (units "asha@example.org")),
    (units "iat", .num 1000), (units "exp", .num 1300)] ++ locale)

/-- The claims without a locale, signed with the portal's secret. -/
def minted : Text :=
  units ("eyJhbGciOiJIUzI1NiIsInR5cCI6IkpXVCJ9." ++
    "eyJwbGF0Zm9ybUtleSI6InBvcnRhbC1hIiwicG9ydGFsVXNlcklkIjoidS0xIiwibmFtZSI6IkFzaGEgUmFvIiwiZW1haWwiOiJh" ++
    "c2hhQGV4YW1wbGUub3JnIiwiaWF0IjoxMDAwLCJleHAiOjEzMDB9." ++
    "CTNzep_SJYQYRxfDMzgEs3xHBfJ59MQcNGriE_LMkrQ")

/-- The claims with the number 5 for a locale. -/
def numbered : Text :=
  units ("eyJhbGciOiJIUzI1NiIsInR5cCI6IkpXVCJ9." ++
    "eyJwbGF0Zm9ybUtleSI6InBvcnRhbC1hIiwicG9ydGFsVXNlcklkIjoidS0xIiwibmFtZSI6IkFzaGEgUmFvIiwiZW1haWwiOiJh" ++
    "c2hhQGV4YW1wbGUub3JnIiwiaWF0IjoxMDAwLCJleHAiOjEzMDAsImxvY2FsZSI6NX0." ++
    "uD5CAhRfHEymjFs7kQhPSkFZ294wxzAwDKpPzSlEO5g")

def jwt (signed : Text) (payload : Value ℕ) : Jwt ℕ where
  decode token := if token = signed then payload else .null
  verify token secret options :=
    if token = signed ∧ secret = "secret" ∧ options.maxAge = "15m" then some payload else none
  signed token secret _ := token = signed ∧ secret = "secret"
  now := 1060
  timespan age time := if age = "15m" then time + 900 else time

def asText : Value ℕ → String
  | .str s => String.ofList ((decode s).getD [])
  | _ => ""

def env (signed : Text) (payload : Value ℕ) : Env ℕ := ⟨jwt signed payload, (· == 0), asText, id, [platform]⟩

theorem jwt_documented {signed : Text} {locale : List (Text × Value ℕ)} : (jwt signed (claims locale)).Documented := by
  have hverify : ∀ token secret options v, (jwt signed (claims locale)).verify token secret options = some v →
      (token = signed ∧ secret = "secret" ∧ options.maxAge = "15m") ∧ claims locale = v := by
    intro token secret options v h
    simp only [jwt] at h
    split_ifs at h with hcond
    exact ⟨hcond, Option.some_inj.mp h⟩
  constructor
  · intro token secret options v h
    obtain ⟨⟨htoken, -, -⟩, rfl⟩ := hverify _ _ _ _ h
    exact if_pos htoken
  · intro token secret options v h
    obtain ⟨⟨htoken, hsecret, -⟩, -⟩ := hverify _ _ _ _ h
    exact ⟨htoken, hsecret⟩
  · intro token secret options v h
    obtain ⟨⟨-, -, hage⟩, rfl⟩ := hverify _ _ _ _ h
    refine ⟨1000, rfl, ?_⟩
    simp only [jwt, if_pos hage]
    omega
  · intro token secret options v exp h hexp
    obtain ⟨-, rfl⟩ := hverify _ _ _ _ h
    have hthis : property (claims locale) "exp" = some (.num 1300) := rfl
    rw [hthis] at hexp
    cases hexp
    simp only [jwt]
    omega

end Sample

theorem verify_meetsContract_iff_signed :
    MeetsContract (Sample.env Sample.minted (Sample.claims [])) Sample.minted ↔
      WellTyped (Sample.env Sample.minted (Sample.claims [])) Sample.minted :=
  verify_meetsContract_iff Sample.jwt_documented Sample.minted

theorem verify_numberLocale :
    ¬ ∀ (env : Env ℕ) token, env.jwt.Documented → MeetsContract env token := by
  intro h
  have hcontract := h (Sample.env Sample.numbered (Sample.claims [(units "locale", .num 5)])) Sample.numbered
    Sample.jwt_documented
  have hcheck : (match verify (Sample.env Sample.numbered (Sample.claims [(units "locale", .num 5)])) Sample.numbered with
      | .error .typeError => true
      | _ => false) = true := by decide +kernel
  split at hcheck
  · rename_i herror
    obtain ⟨ctx, platform, claims, hok, -⟩ | ⟨⟨message, hrefused⟩, -⟩ := hcontract
    · rw [herror] at hok
      cases hok
    · rw [herror] at hrefused
      cases hrefused
  · cases hcheck

end HandoffService

end Cimp
