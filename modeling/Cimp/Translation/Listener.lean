import Cimp.Common
import Cimp.Entities

namespace Cimp

structure TranslationConfig where
  enabled : Bool
  staffLocale : Option String
  reporterLocales : List String
  toLowerCase : String → String

def replaceFirst (c d : Char) : List Char → List Char
  | [] => []
  | x :: xs => if x = c then d :: xs else x :: replaceFirst c d xs

def baseLocale (cfg : TranslationConfig) (locale : Option String) : Option String :=
  (locale.filter (· ≠ "")).bind fun l =>
    let base := (replaceFirst '_' '-' (cfg.toLowerCase (trim l)).toList).takeWhile (· ≠ '-')
    if 2 ≤ base.length ∧ base.length ≤ 3 ∧ base.all fun c => 'a' ≤ c && c ≤ 'z' then some (String.ofList base) else none

def setEntry (cache : List (String × String)) (locale text : String) : List (String × String) :=
  if cache.any fun e => e.1 = locale then cache.map fun e => if e.1 = locale then (locale, text) else e
  else cache ++ [(locale, text)]

/-- `translateComment` between its awaits; `source` is `none` while the detection is out. -/
structure TranslationJob where
  comment : Comment
  source : Option (Option String)
  targets : List String
  cache : List (String × String)
  changed : Bool
deriving DecidableEq

namespace TranslationListener

variable (cfg : TranslationConfig)

def targets (comment : Comment) : List String :=
  if comment.authorType = .reporter then [(baseLocale cfg cfg.staffLocale).getD "en"]
  else if comment.visibility = .reporterVisible then
    (cfg.reporterLocales.filterMap fun l => baseLocale cfg (some l)).eraseDups
  else []

def load (db : Db) (commentId : Uuid) : Option TranslationJob :=
  if cfg.enabled = false then none
  else match db.comments.findOne commentId with
    | none => none
    | some comment =>
      if trim comment.body = "" then none
      else if targets cfg comment = [] then none
      else some ⟨comment, comment.sourceLocale.map some, targets cfg comment, comment.translations, false⟩

end TranslationListener

namespace TranslationJob

def detect (locale : Option String) (job : TranslationJob) : TranslationJob :=
  { job with source := some (job.source.getD locale) }

def skips (job : TranslationJob) (target : String) : Bool :=
  (job.cache.lookup target).any (· ≠ "") || job.source.join.any fun source => source ≠ "" && source = target

def remaining (job : TranslationJob) : List String := job.targets.dropWhile job.skips

/-- What the provider sends back for the next target that is neither cached nor the source itself. -/
def translate (text : String) (job : TranslationJob) : TranslationJob :=
  match job.source, job.remaining with
  | some _, target :: rest =>
    if text ≠ "" ∧ text ≠ job.comment.body then
      { job with targets := rest, cache := setEntry job.cache target text, changed := true }
    else { job with targets := rest }
  | _, _ => job

def done (job : TranslationJob) : Bool := job.source.isSome && job.remaining.isEmpty

def writes (job : TranslationJob) : Bool := job.changed || job.source.join ≠ job.comment.sourceLocale

def assign (job : TranslationJob) (c : Comment) : Comment :=
  { c with
    sourceLocale := job.source.join
    translations := if job.changed then job.cache else c.translations }

@[simp] theorem assign_id (job : TranslationJob) (c : Comment) : (job.assign c).id = c.id := rfl

@[simp] theorem assign_body (job : TranslationJob) (c : Comment) : (job.assign c).body = c.body := rfl

def writeBack (job : TranslationJob) : Statement Db := fun db =>
  some { db with comments := db.comments.update job.comment.id job.assign job.assign_id }

end TranslationJob

end Cimp
