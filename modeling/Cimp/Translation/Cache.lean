import Cimp.Comments.Staff
import Cimp.Lib.Execution
import Cimp.Reporter.Portal
import Cimp.Translation.Listener
import Mathlib.Logic.Function.Basic

namespace Cimp

open Execution Transaction

/-- The body each cached entry was translated from, and the one the language was detected in. -/
structure Provenance where
  entries : String → Option String
  source : Option String

namespace Provenance

def none : Provenance := ⟨fun _ => .none, .none⟩

def detect (locale : Option String) (job : TranslationJob) (p : Provenance) : Provenance :=
  { p with source := if job.source.isNone then locale.map fun _ => job.comment.body else p.source }

def translate (text : String) (job : TranslationJob) (p : Provenance) : Provenance :=
  match job.source, job.remaining with
  | some _, target :: _ =>
    if text ≠ "" ∧ text ≠ job.comment.body then
      { p with entries := Function.update p.entries target (some job.comment.body) }
    else p
  | _, _ => p

def writeBack (job : TranslationJob) (p stored : Provenance) : Provenance :=
  ⟨if job.changed then p.entries else stored.entries, p.source⟩

end Provenance

structure Translations where
  db : Db
  jobs : ℕ → Option (TranslationJob × Provenance)
  origin : Uuid → Provenance

namespace Translations

inductive Action
  | edit (env : Env) (staff : AuthenticatedStaff) (commentId : Uuid) (text : String)
  | load (slot : ℕ) (commentId : Uuid)
  | detect (slot : ℕ) (locale : Option String)
  | translate (slot : ℕ) (text : String)
  | writeBack (slot : ℕ) (env : Env)
  | fail (slot : ℕ)

/-- What is cached before the run counts as made from what is stored beside it. -/
def start (db : Db) : Translations where
  db := db
  jobs := fun _ => none
  origin := fun id => ⟨fun _ => (db.comments.findOne id).map Comment.body, none⟩

def hold (s : Translations) (slot : ℕ) (job : Option (TranslationJob × Provenance)) : Translations :=
  { s with jobs := Function.update s.jobs slot job }

def finish (s : Translations) (slot : ℕ) (env : Env) (job : TranslationJob) (p : Provenance) : Translations :=
  if job.writes = false then s.hold slot none
  else match body env.statement [job.writeBack] s.db with
    | none => s.hold slot none
    | some db =>
      { s.hold slot none with
        db
        origin := Function.update s.origin job.comment.id (p.writeBack job (s.origin job.comment.id)) }

def step (cfg : TranslationConfig) (s : Translations) : Action → Translations
  | .edit env staff commentId text =>
    match CommentsService.editComment env staff commentId text s.db with
    | .error _ => s
    | .ok db => { s with db, origin := Function.update s.origin commentId .none }
  | .load slot commentId =>
    match TranslationListener.load cfg s.db commentId with
    | none => s
    | some job => s.hold slot (some (job, s.origin commentId))
  | .detect slot locale =>
    match s.jobs slot with
    | none => s
    | some (job, p) => s.hold slot (some (job.detect locale, p.detect locale job))
  | .translate slot text =>
    match s.jobs slot with
    | none => s
    | some (job, p) => s.hold slot (some (job.translate text, p.translate text job))
  | .writeBack slot env =>
    match s.jobs slot with
    | none => s
    | some (job, p) => if job.done then s.finish slot env job p else s
  | .fail slot => s.hold slot none

/-- Entries, and a detected language, were made from the body `c` has now. -/
def UpToDate (p : Provenance) (c : Comment) : Prop :=
  (∀ e ∈ c.translations, p.entries e.1 = some c.body) ∧ ∀ b ∈ p.source, b = c.body

def Current (s : Translations) : Prop := ∀ c ∈ s.db.comments.rows, UpToDate (s.origin c.id) c

instance decidableUpToDate (p : Provenance) (c : Comment) : Decidable (UpToDate p c) :=
  inferInstanceAs (Decidable ((∀ e ∈ c.translations, p.entries e.1 = some c.body) ∧ ∀ b ∈ p.source, b = c.body))

instance decidableCurrent (s : Translations) : Decidable (Current s) :=
  List.decidableBAll (fun c : Comment => UpToDate (s.origin c.id) c) s.db.comments.rows

/-- What a reporter is shown is the body, or a translation that was made from it. -/
def Serves (s : Translations) : Prop := ∀ c ∈ s.db.comments.rows, ∀ locale,
  (ReporterService.updateView locale c).body = c.body ∨
    ∃ e ∈ c.translations, (ReporterService.updateView locale c).body = e.2 ∧ (s.origin c.id).entries e.1 = some c.body

def WritesBackCurrent (s : Translations) : Action → Prop
  | .writeBack slot env => ∀ p ∈ s.jobs slot, p.1.done = true → p.1.writes = true → env.statement 0 = false →
      ∀ row ∈ s.db.comments.findOne p.1.comment.id, row.body = p.1.comment.body
  | _ => True

/-- What a job is going to write came from the body it loaded. -/
structure Proper (job : TranslationJob) (p : Provenance) : Prop where
  entries : ∀ e ∈ job.cache, p.entries e.1 = some job.comment.body
  source : ∀ b ∈ p.source, b = job.comment.body

structure Marked (job : TranslationJob) (p : Provenance) : Prop where
  entries : job.changed = true → ∃ e ∈ job.cache, p.entries e.1 = some job.comment.body
  source : job.source.join ≠ job.comment.sourceLocale → p.source = some job.comment.body
  undetected : job.source = none → job.comment.sourceLocale = none

variable {cfg : TranslationConfig} {s : Translations} {job : TranslationJob} {p : Provenance} {slot : ℕ} {env : Env}

theorem mem_setEntry {cache : List (String × String)} {locale text : String} {e : String × String}
    (h : e ∈ setEntry cache locale text) : e = (locale, text) ∨ e ∈ cache ∧ e.1 ≠ locale := by
  unfold setEntry at h
  split at h
  · obtain ⟨f, hf, he⟩ := List.mem_map.mp h
    split at he
    · exact .inl he.symm
    · rename_i hne
      exact .inr ⟨he ▸ hf, he ▸ hne⟩
  · rename_i hnew
    rcases List.mem_append.mp h with hold | hlast
    · refine .inr ⟨hold, fun heq => hnew (List.any_eq_true.mpr ⟨e, hold, decide_eq_true heq⟩)⟩
    · exact .inl (List.mem_singleton.mp hlast)

theorem setEntry_mem (cache : List (String × String)) (locale text : String) :
    (locale, text) ∈ setEntry cache locale text := by
  unfold setEntry
  split
  · rename_i h
    obtain ⟨e, he, hlocale⟩ := List.any_eq_true.mp h
    exact List.mem_map.mpr ⟨e, he, if_pos (of_decide_eq_true hlocale)⟩
  · exact List.mem_append_right _ (List.mem_singleton_self _)

theorem Proper.detect (h : Proper job p) (locale : Option String) : Proper (job.detect locale) (p.detect locale job) := by
  refine ⟨h.entries, fun b hb => ?_⟩
  simp only [Provenance.detect] at hb
  split at hb
  · obtain ⟨_, _, rfl⟩ := Option.map_eq_some_iff.mp hb
    rfl
  · exact h.source b hb

theorem Marked.detect (h : Marked job p) (locale : Option String) : Marked (job.detect locale) (p.detect locale job) := by
  refine ⟨h.entries, fun hne => ?_, fun hnone => by cases hnone⟩
  simp only [TranslationJob.detect, Provenance.detect] at hne ⊢
  cases hsource : job.source with
  | none =>
    rw [hsource, h.undetected hsource] at hne
    cases locale with
    | none => exact absurd rfl hne
    | some l => rfl
  | some source =>
    rw [hsource] at hne
    exact h.source (by rw [hsource]; exact hne)

theorem translate_cases (job : TranslationJob) (p : Provenance) (text : String) :
    (∃ rest, job.translate text = { job with targets := rest } ∧ p.translate text job = p) ∨
      ∃ target rest, job.translate text =
          { job with targets := rest, cache := setEntry job.cache target text, changed := true } ∧
        p.translate text job = { p with entries := Function.update p.entries target (some job.comment.body) } := by
  unfold TranslationJob.translate Provenance.translate
  cases hsource : job.source with
  | none => exact .inl ⟨job.targets, by simp [← hsource]⟩
  | some source =>
    cases hremaining : job.remaining with
    | nil => exact .inl ⟨job.targets, by simp [← hsource]⟩
    | cons target rest =>
      by_cases htext : text ≠ "" ∧ text ≠ job.comment.body
      · exact .inr ⟨target, rest, by simp [htext, ← hsource]⟩
      · exact .inl ⟨rest, by simp [htext, ← hsource]⟩

theorem Proper.translate (h : Proper job p) (text : String) : Proper (job.translate text) (p.translate text job) := by
  rcases translate_cases job p text with ⟨rest, hjob, hp⟩ | ⟨target, rest, hjob, hp⟩
  · rw [hjob, hp]
    exact ⟨h.entries, h.source⟩
  · rw [hjob, hp]
    refine ⟨fun e he => ?_, h.source⟩
    rcases mem_setEntry he with rfl | ⟨hold, hne⟩
    · exact Function.update_self ..
    · exact (Function.update_of_ne hne ..).trans (h.entries e hold)

theorem Marked.translate (h : Marked job p) (text : String) : Marked (job.translate text) (p.translate text job) := by
  rcases translate_cases job p text with ⟨rest, hjob, hp⟩ | ⟨target, rest, hjob, hp⟩
  · rw [hjob, hp]
    exact ⟨h.entries, h.source, h.undetected⟩
  · rw [hjob, hp]
    exact ⟨fun _ => ⟨(target, text), setEntry_mem _ _ _, Function.update_self ..⟩, h.source, h.undetected⟩

theorem load_cases {db : Db} {id : Uuid} (h : TranslationListener.load cfg db id = some job) :
    db.comments.findOne id = some job.comment ∧ job.source = job.comment.sourceLocale.map some ∧
      job.cache = job.comment.translations ∧ job.changed = false := by
  unfold TranslationListener.load at h
  split at h
  · cases h
  · split at h
    · cases h
    · rename_i comment hcomment
      split at h
      · cases h
      · split at h
        · cases h
        · cases h
          exact ⟨hcomment, rfl, rfl, rfl⟩

theorem edit_cases {staff : AuthenticatedStaff} {id : Uuid} {text : String} {db db' : Db}
    (h : CommentsService.editComment env staff id text db = .ok db') :
    db'.comments =
      db.comments.update id (CommentsService.edited env.now text) (CommentsService.edited_id env.now text) := by
  unfold CommentsService.editComment at h
  split at h
  · cases h
  · obtain ⟨comment, heditable, h⟩ := bind_ok h
    split at h
    · cases h
    · rename_i saved hsaved
      cases h
      obtain ⟨m, hm, rfl⟩ := AuditService.of_audited hsaved
      cases hm
      rw [Table.findOne_key (CommentsService.editable_ok heditable).1]

theorem Current.serves (h : Current s) : Serves s := by
  intro c hc locale
  simp only [ReporterService.updateView]
  cases htranslation : ReporterService.translation locale c with
  | none => exact .inl rfl
  | some text =>
    obtain ⟨l, _, hlookup⟩ := Option.bind_eq_some_iff.mp htranslation
    have hmem : (l, text) ∈ c.translations := by
      obtain ⟨pre, post, hsplit, _⟩ := List.lookup_eq_some_iff.mp hlookup
      rw [hsplit]
      exact List.mem_append_right _ List.mem_cons_self
    exact .inr ⟨(l, text), hmem, rfl, (h c hc).1 _ hmem⟩

theorem forall_hold {P : TranslationJob → Provenance → Prop} {q : Option (TranslationJob × Provenance)}
    (h : ∀ k job p, s.jobs k = some (job, p) → P job p) (hq : ∀ job p, q = some (job, p) → P job p) :
    ∀ k job p, (s.hold slot q).jobs k = some (job, p) → P job p := by
  intro k job p hk
  by_cases hslot : k = slot
  · subst hslot
    exact hq job p (by simpa [hold] using hk)
  · exact h k job p (by simpa [hold, hslot] using hk)

theorem finish_jobs : (s.finish slot env job p).jobs = (s.hold slot none).jobs := by
  unfold finish
  split
  · rfl
  · split <;> rfl

theorem step_jobs {P : TranslationJob → Provenance → Prop} (a : Action)
    (hload : ∀ id job, TranslationListener.load cfg s.db id = some job → P job (s.origin id))
    (hdetect : ∀ job p locale, P job p → P (job.detect locale) (p.detect locale job))
    (htranslate : ∀ job p text, P job p → P (job.translate text) (p.translate text job))
    (h : ∀ k job p, s.jobs k = some (job, p) → P job p) :
    ∀ k job p, (step cfg s a).jobs k = some (job, p) → P job p := by
  cases a with
  | edit env staff id text =>
    simp only [step]
    split <;> exact h
  | load slot id =>
    simp only [step]
    split
    · exact h
    · rename_i job hjob
      apply forall_hold h
      intro job' p hp
      cases hp
      exact hload id job hjob
  | detect slot locale =>
    simp only [step]
    split
    · exact h
    · rename_i job p hjob
      apply forall_hold h
      intro job' p' hp
      cases hp
      exact hdetect job p locale (h slot job p hjob)
  | translate slot text =>
    simp only [step]
    split
    · exact h
    · rename_i job p hjob
      apply forall_hold h
      intro job' p' hp
      cases hp
      exact htranslate job p text (h slot job p hjob)
  | writeBack slot env =>
    simp only [step]
    split
    · exact h
    · split
      · rw [finish_jobs]
        exact forall_hold h fun _ _ hp => by cases hp
      · exact h
  | fail slot => exact forall_hold h fun _ _ hp => by cases hp

theorem step_marked (a : Action) (h : ∀ k job p, s.jobs k = some (job, p) → Marked job p) :
    ∀ k job p, (step cfg s a).jobs k = some (job, p) → Marked job p := by
  refine step_jobs a (fun id job hload => ?_) (fun _ _ locale h => h.detect locale)
    (fun _ _ text h => h.translate text) h
  obtain ⟨_, hsource, _, hchanged⟩ := load_cases hload
  constructor
  · intro hwrites
    rw [hchanged] at hwrites
    cases hwrites
  · intro hne
    rw [hsource] at hne
    cases hstored : job.comment.sourceLocale <;> simp [hstored] at hne
  · intro hnone
    rw [hsource] at hnone
    exact Option.map_eq_none_iff.mp hnone

theorem step_proper (a : Action) (hcurrent : Current s) (h : ∀ k job p, s.jobs k = some (job, p) → Proper job p) :
    ∀ k job p, (step cfg s a).jobs k = some (job, p) → Proper job p := by
  refine step_jobs a (fun id job hload => ?_) (fun _ _ locale h => h.detect locale)
    (fun _ _ text h => h.translate text) h
  obtain ⟨hfind, _, hcache, _⟩ := load_cases hload
  obtain ⟨hentries, hsource⟩ := hcurrent _ (Table.mem_of_findOne hfind)
  rw [Table.findOne_key hfind] at hentries hsource
  exact ⟨hcache ▸ hentries, hsource⟩

theorem upToDate_writeBack {c : Comment} {stored : Provenance} (hproper : Proper job p) (hstored : UpToDate stored c)
    (hbody : c.body = job.comment.body) : UpToDate (p.writeBack job stored) (job.assign c) := by
  refine ⟨fun e he => ?_, fun b hb => ?_⟩
  · simp only [TranslationJob.assign, Provenance.writeBack] at he ⊢
    split
    · rename_i hchanged
      rw [if_pos hchanged] at he
      rw [hbody]
      exact hproper.entries e he
    · rename_i hsame
      rw [if_neg hsame] at he
      exact hstored.1 e he
  · exact (hproper.source b hb).trans hbody.symm

theorem body_of_upToDate {c : Comment} {stored : Provenance} (hmarked : Marked job p) (hwrites : job.writes = true)
    (h : UpToDate (p.writeBack job stored) (job.assign c)) : c.body = job.comment.body := by
  rcases Bool.or_eq_true _ _ |>.mp hwrites with hchanged | hsource
  · obtain ⟨e, he, hentry⟩ := hmarked.entries hchanged
    have hcurrent := h.1 e (by simpa [TranslationJob.assign, hchanged] using he)
    simp only [Provenance.writeBack, hchanged, if_true, hentry] at hcurrent
    exact (Option.some.inj hcurrent).symm
  · exact (h.2 _ (hmarked.source (of_decide_eq_true hsource))).symm

theorem finish_current_iff (hcurrent : Current s) (hmarked : Marked job p) (hproper : Proper job p) :
    Current (s.finish slot env job p) ↔ (job.writes = true → env.statement 0 = false →
      ∀ row ∈ s.db.comments.findOne job.comment.id, row.body = job.comment.body) := by
  unfold finish
  by_cases hwrites : job.writes = true
  · simp only [hwrites, Bool.true_eq_false, if_false, true_implies]
    cases hfails : env.statement 0 with
    | true =>
      simp only [body, hfails, if_true, Bool.true_eq_false, false_implies, iff_true]
      exact hcurrent
    | false =>
      simp only [body, hfails, Bool.false_eq_true, if_false, true_implies, TranslationJob.writeBack, Option.bind_some]
      constructor
      · intro hafter row hrow
        have hid := Table.findOne_key hrow
        have hstored := hafter (job.assign row) (List.mem_map.mpr ⟨row, Table.mem_of_findOne hrow, if_pos hid⟩)
        simp only [TranslationJob.assign_id, hid, Function.update_self] at hstored
        exact body_of_upToDate hmarked hwrites hstored
      · intro hbody c hc
        obtain ⟨row, hrow, hc⟩ := List.mem_map.mp hc
        split at hc
        · rename_i hid
          subst hc
          simp only [TranslationJob.assign_id, hid, Function.update_self]
          have hstored := hcurrent row hrow
          rw [hid] at hstored
          exact upToDate_writeBack hproper hstored (hbody row (hid ▸ Table.findOne_of_mem hrow))
        · rename_i hid
          subst hc
          simp only [Function.update_of_ne hid]
          exact hcurrent row hrow
  · simp only [Bool.not_eq_true] at hwrites
    simp only [hwrites, if_true, Bool.false_eq_true, false_implies, iff_true]
    exact hcurrent

theorem edit_current {staff : AuthenticatedStaff} {id : Uuid} {text : String} {db : Db} (hcurrent : Current s)
    (h : CommentsService.editComment env staff id text s.db = .ok db) :
    Current { s with db, origin := Function.update s.origin id .none } := by
  intro c hc
  simp only [edit_cases h, Table.update] at hc
  obtain ⟨row, hrow, hc⟩ := List.mem_map.mp hc
  split at hc
  · rename_i hid
    subst hc
    simp only [CommentsService.edited_id, hid, Function.update_self]
    constructor
    · intro e he
      cases he
    · intro b hb
      cases hb
  · rename_i hid
    subst hc
    simp only [Function.update_of_ne hid]
    exact hcurrent row hrow

theorem step_current_iff (a : Action) (hmarked : ∀ k job p, s.jobs k = some (job, p) → Marked job p)
    (hcurrent : Current s) (hproper : ∀ k job p, s.jobs k = some (job, p) → Proper job p) :
    Current (step cfg s a) ↔ WritesBackCurrent s a := by
  cases a with
  | edit env staff id text =>
    refine iff_of_true ?_ trivial
    simp only [step]
    split
    · exact hcurrent
    · rename_i db hdb
      exact edit_current hcurrent hdb
  | load slot id =>
    refine iff_of_true ?_ trivial
    simp only [step]
    split <;> exact hcurrent
  | detect slot locale =>
    refine iff_of_true ?_ trivial
    simp only [step]
    split <;> exact hcurrent
  | translate slot text =>
    refine iff_of_true ?_ trivial
    simp only [step]
    split <;> exact hcurrent
  | writeBack slot env =>
    simp only [step, WritesBackCurrent]
    cases hjob : s.jobs slot with
    | none => simpa using hcurrent
    | some q =>
      obtain ⟨job, p⟩ := q
      simp only [Option.mem_some_iff, forall_eq']
      by_cases hdone : job.done = true
      · simp only [hdone, if_true, true_implies]
        exact finish_current_iff hcurrent (hmarked slot job p hjob) (hproper slot job p hjob)
      · simp only [hdone, Bool.false_eq_true, if_false, false_implies, iff_true]
        exact hcurrent
  | fail slot => exact iff_of_true hcurrent trivial

theorem start_current (db : Db) : Current (start db) := by
  intro c hc
  have hfind : db.comments.findOne c.id = some c := Table.findOne_of_mem hc
  constructor
  · intro e _
    simp only [start, hfind, Option.map_some]
  · intro b hb
    cases hb

/-- The cache follows the body through a run exactly when every job that writes finds the body it loaded. -/
theorem always_current_iff_writesBackCurrent (cfg : TranslationConfig) (db : Db) (as : List Action) :
    Always (step cfg) (fun s => Current s ∧ Serves s) (start db) as ↔
      EveryStep (step cfg) WritesBackCurrent (start db) as := by
  have hnone : ∀ (P : TranslationJob → Provenance → Prop) k job p, (start db).jobs k = some (job, p) → P job p := by
    intro P k job p h
    cases h
  have hboth : Always (step cfg) (fun s => Current s ∧ ∀ k job p, s.jobs k = some (job, p) → Proper job p)
      (start db) as ↔ EveryStep (step cfg) WritesBackCurrent (start db) as := by
    refine always_iff_everyStep (I := fun s => ∀ k job p, s.jobs k = some (job, p) → Marked job p)
      (fun _ a h => step_marked a h) (fun s a hmarked h => ?_) (hnone _) ⟨start_current db, hnone _⟩ as
    rw [← step_current_iff a hmarked h.1 h.2]
    exact and_iff_left (step_proper a h.1 h.2)
  rw [← hboth]
  constructor
  · intro h
    have hcurrent : Always (step cfg) Current (start db) as := h.mono fun _ h => h.1
    exact hcurrent.and (hcurrent.carry (fun _ a hc hp => step_proper a hc hp) (hnone _))
  · intro h
    exact h.mono fun _ hs => ⟨hs.1, hs.1.serves⟩

end Translations

namespace Sample

def translationConfig : TranslationConfig := ⟨true, some "en", ["es"], id⟩

def author : AuthenticatedStaff := ⟨"root", "local:root@cimp", "Root", "root@cimp", [⟨.admin, none⟩]⟩

def remark : Comment where
  id := "remark"
  issue := "issue"
  author := some "root"
  authorType := .staff
  authorName := none
  body := "Pay 10"
  visibility := .reporterVisible
  sourceLocale := none
  translations := []
  createdAt := 0
  editedAt := none

def remarked : Db := { Db.empty with comments := ⟨[remark], by decide⟩ }

end Sample

namespace Translations

def editDuringTranslation : List Action :=
  [.load 0 "remark", .detect 0 (some "en"), .translate 0 "Pague 10",
    .edit { now := 1 } Sample.author "remark" "Pay 100", .writeBack 0 { now := 2 }]

theorem stale_translation_stored :
    ¬ ∀ (cfg : TranslationConfig) (db : Db) (as : List Action),
      Always (step cfg) (fun s => Current s ∧ Serves s) (start db) as := by
  intro h
  have hfinal := (h Sample.translationConfig Sample.remarked editDuringTranslation).final.1
  revert hfinal
  decide

end Translations

end Cimp
