import Mathlib.Tactic.Common

namespace Cimp

abbrev Uuid := String

/-- A uuid as a request spells it: the database reads its letters in either case. -/
structure UuidText where
  text : String
  uuid : Uuid
  reads : text.toList.map Char.toLower = uuid.toList.map Char.toLower
deriving DecidableEq, Repr

instance : Coe Uuid UuidText := ⟨fun uuid => ⟨uuid, uuid, rfl⟩⟩

abbrev Time := ℕ

inductive Role
  | focalPoint | developer | admin | watcher
deriving DecidableEq, Repr

inductive IssueStatus
  | new | inProgress | onHold | resolved | closed | reopened
deriving DecidableEq, Repr

inductive Priority
  | low | medium | high | critical
deriving DecidableEq, Repr

inductive CommentVisibility
  | internal | reporterVisible
deriving DecidableEq, Repr

inductive ScanStatus
  | pending | clean | infected | skipped
deriving DecidableEq, Repr

inductive ActorType
  | staff | system | reporter
deriving DecidableEq, Repr

inductive JiraSyncStatus
  | notSynced | pending | synced | failed
deriving DecidableEq, Repr

inductive AccountStatus
  | active | disabled
deriving DecidableEq, Repr

inductive PlatformStatus
  | active | disabled
deriving DecidableEq, Repr

inductive NotificationChannel
  | email | inApp
deriving DecidableEq, Repr

inductive NotificationStatus
  | pending | sent | failed
deriving DecidableEq, Repr

inductive IssueLinkType
  | blocks | relates | duplicates
deriving DecidableEq, Repr

inductive AutomationAction
  | setPriority | assign | addLabel
deriving DecidableEq, Repr

inductive AutomationTrigger
  | issueCreated | statusChanged
deriving DecidableEq, Repr

namespace IssueStatus

def value : IssueStatus → String
  | new => "NEW"
  | inProgress => "IN_PROGRESS"
  | onHold => "ON_HOLD"
  | resolved => "RESOLVED"
  | closed => "CLOSED"
  | reopened => "REOPENED"

def values : List IssueStatus := [new, inProgress, onHold, resolved, closed, reopened]

def ofValue (s : String) : Option IssueStatus := values.find? (fun x => x.value = s)

@[simp] theorem ofValue_value (s : IssueStatus) : ofValue s.value = some s := by
  cases s <;> decide

theorem value_of_ofValue {v : String} {s : IssueStatus} (h : ofValue v = some s) : s.value = v := by
  simpa using List.find?_some h

end IssueStatus

namespace Priority

def value : Priority → String
  | low => "LOW"
  | medium => "MEDIUM"
  | high => "HIGH"
  | critical => "CRITICAL"

def values : List Priority := [low, medium, high, critical]

theorem value_inj {p q : Priority} : p.value = q.value ↔ p = q := by
  cases p <;> cases q <;> decide

def ofValue (s : String) : Option Priority := values.find? (fun x => x.value = s)

@[simp] theorem ofValue_value (p : Priority) : ofValue p.value = some p := by
  cases p <;> decide

theorem value_of_ofValue {v : String} {p : Priority} (h : ofValue v = some p) : p.value = v := by
  simpa using List.find?_some h

end Priority

def CommentVisibility.value : CommentVisibility → String
  | .internal => "INTERNAL"
  | .reporterVisible => "REPORTER_VISIBLE"

def ScanStatus.value : ScanStatus → String
  | .pending => "PENDING"
  | .clean => "CLEAN"
  | .infected => "INFECTED"
  | .skipped => "SKIPPED"

def openIssueStatuses : List IssueStatus := [.new, .inProgress, .onHold, .reopened]

def servableScanStatuses : List ScanStatus := [.clean, .skipped]

def isSpace (c : Char) : Bool :=
  c.toNat ∈ [0x9, 0xa, 0xb, 0xc, 0xd, 0x20, 0xa0, 0x1680, 0x2028, 0x2029, 0x202f, 0x205f, 0x3000, 0xfeff]
    || (0x2000 ≤ c.toNat && c.toNat ≤ 0x200a)

def trim (s : String) : String :=
  String.ofList (((s.toList.dropWhile isSpace).reverse.dropWhile isSpace).reverse)

/-- What the exception filter sends: the status code and the message. -/
structure HttpException where
  status : ℕ
  message : String
deriving DecidableEq, Repr

namespace HttpException

def badRequest (message : String) : HttpException := ⟨400, message⟩
def unauthorized (message : String) : HttpException := ⟨401, message⟩
def forbidden (message : String) : HttpException := ⟨403, message⟩
def notFound (message : String) : HttpException := ⟨404, message⟩
def conflict (message : String) : HttpException := ⟨409, message⟩
def unprocessableEntity (message : String) : HttpException := ⟨422, message⟩
def internalServerError : HttpException := ⟨500, "Internal server error"⟩

end HttpException

theorem bind_ok {ε α β : Type} {x : Except ε α} {f : α → Except ε β} {b : β}
    (h : x >>= f = .ok b) : ∃ a, x = .ok a ∧ f a = .ok b := by
  cases x with
  | error e => cases h
  | ok a => exact ⟨a, rfl, h⟩

theorem bind_of_ok {ε α β : Type} {x : Except ε α} {a : α} (h : x = .ok a) (f : α → Except ε β) :
    x >>= f = f a := by
  rw [h]
  rfl

theorem bind_error {ε α β : Type} {x : Except ε α} {f : α → Except ε β} {e : ε}
    (h : x >>= f = .error e) : x = .error e ∨ ∃ a, x = .ok a ∧ f a = .error e := by
  cases x with
  | error e' =>
    cases h
    exact Or.inl rfl
  | ok a => exact Or.inr ⟨a, rfl, h⟩

def require (ok : Bool) (e : HttpException) : Except HttpException Unit :=
  if ok then .ok () else .error e

theorem require_ok {ok : Bool} {e : HttpException} {u : Unit} (h : require ok e = .ok u) : ok = true := by
  unfold require at h
  split at h
  · assumption
  · cases h

theorem require_decide {p : Prop} [Decidable p] {e : HttpException} {u : Unit}
    (h : require p e = .ok u) : p := of_decide_eq_true (require_ok h)

end Cimp
