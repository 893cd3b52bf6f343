import Cimp.Authz.Guard
import Cimp.Comments.Mentions
import Cimp.Lib.Scanning
import Cimp.Lib.Utf16

namespace Cimp

open Scanning

namespace IssueDetailPanel

abbrev Text := List UInt16

def commercialAt : UInt16 := 0x40

def space : UInt16 := 0x20

def backslash : UInt16 := 0x5C

def bar : UInt16 := 0x7C

/-- `.*+?^$()|[]\`, and the two braces. -/
def syntaxCharacters : Text := [0x2E, 0x2A, 0x2B, 0x3F, 0x5E, 0x24, 0x7B, 0x7D, 0x28, 0x29, bar, 0x5B, 0x5D, backslash]

def escapeRegExp (s : Text) : Text := s.flatMap fun u => if u ∈ syntaxCharacters then [backslash, u] else [u]

def known (names : List Text) : List Text := names.filter fun n => n ≠ []

def longestFirst (names : List Text) : List Text := (known names).mergeSort fun a b => b.length ≤ a.length

def mentionRegex (names : List Text) : Option Text :=
  if known names = [] then none
  else some (commercialAt :: 0x28 :: ([bar].intercalate ((longestFirst names).map escapeRegExp) ++ [0x29]))

def prepend (u : UInt16) : List Text → List Text
  | [] => [[u]]
  | w :: ws => (u :: w) :: ws

/-- The alternatives of a pattern, where each is literal; any other syntax is not read. -/
def readAlternatives : Text → Option (List Text)
  | [] => some [[]]
  | u :: us =>
    if u = backslash then
      match us with
      | [] => none
      | v :: us => if v ∈ syntaxCharacters then (readAlternatives us).map (prepend v) else none
    else if u = bar then (readAlternatives us).map ([] :: ·)
    else if u ∈ syntaxCharacters then none
    else (readAlternatives us).map (prepend u)

def alternatives (source : Text) : Option (List Text) :=
  match source with
  | a :: b :: rest =>
    if a = commercialAt ∧ b = 0x28 ∧ rest.getLast? = some 0x29 then readAlternatives rest.dropLast else none
  | _ => none

def names (members : List StaffView) : List Text := members.map fun m => Utf16.units m.name

/-- `byName.get`: of two members of one name the map holds the last. -/
def byName (members : List StaffView) (name : Text) : Option Uuid :=
  (members.reverse.find? fun m => Utf16.units m.name = name).map StaffView.id

def mentionedMemberIds (text : Text) (members : List StaffView) : List Uuid :=
  match (mentionRegex (names members)).bind alternatives with
  | none => []
  | some words => (((allMatches commercialAt words text).filterMap (byName members)).filter fun id => id ≠ "").eraseDups

def renderBody (text : Text) (names : List Text) : List (Piece UInt16) :=
  match (mentionRegex names).bind alternatives with
  | none => plain text
  | some words => pieces commercialAt words text

def sentIds (me : Uuid) (members : List StaffView) (text : Text) : List Uuid :=
  (mentionedMemberIds text members).filter fun id => id ≠ me

def applyMention (body : Text) (start caret : ℕ) (member : StaffView) : Text :=
  body.take start ++ commercialAt :: (Utf16.units member.name ++ space :: body.drop caret)

end IssueDetailPanel

/-- What the decorators of `CreateCommentDto` ask of class-validator. -/
structure Validator where
  length : String → ℕ
  isUUID4 : String → Bool

namespace CommentsController

def accepts (validator : Validator) (dto : CreateCommentDto) : Bool :=
  1 ≤ validator.length dto.body && validator.length dto.body ≤ 5000 && dto.mentionStaffIds.length ≤ 20
    && dto.mentionStaffIds.all validator.isUUID4

/-- `none` is the 400 of the validation pipe. -/
def addComment (validator : Validator) (env : Env) (staff : AuthenticatedStaff) (issueId : Uuid) (dto : CreateCommentDto)
    (id : Uuid) (db : Db) : Option (Except HttpException (Db × IssueEvent)) :=
  if accepts validator dto then some (CommentsService.addComment env staff issueId dto id db) else none

end CommentsController

namespace IssueDetailPanel

variable {text : Text} {ws : List Text} {w : Text} {members : List StaffView}

theorem readAlternatives_cons {u : UInt16} (hu : u ∉ syntaxCharacters) (us : Text) :
    readAlternatives (u :: us) = (readAlternatives us).map (prepend u) := by
  have hbackslash : u ≠ backslash := by
    rintro rfl
    exact hu (by decide)
  have hbar : u ≠ bar := by
    rintro rfl
    exact hu (by decide)
  rw [readAlternatives.eq_def]
  simp only [if_neg hbackslash, if_neg hbar, if_neg hu]

theorem readAlternatives_escaped {u : UInt16} (hu : u ∈ syntaxCharacters) (us : Text) :
    readAlternatives (backslash :: u :: us) = (readAlternatives us).map (prepend u) := by
  rw [readAlternatives.eq_def]
  simp only [if_pos, if_pos hu]

theorem readAlternatives_bar (us : Text) : readAlternatives (bar :: us) = (readAlternatives us).map ([] :: ·) := by
  have hbar : bar ≠ backslash := by decide
  rw [readAlternatives.eq_def]
  simp only [if_neg hbar, if_pos]

theorem readAlternatives_escape (w us : Text) :
    readAlternatives (escapeRegExp w ++ us) = (readAlternatives us).map fun ws => w.foldr prepend ws := by
  induction w with
  | nil => simp [escapeRegExp]
  | cons u w ih =>
    have hcons : escapeRegExp (u :: w) = (if u ∈ syntaxCharacters then [backslash, u] else [u]) ++ escapeRegExp w := rfl
    rw [hcons, List.append_assoc]
    split
    · rename_i hu
      rw [List.cons_append, List.cons_append, List.nil_append, readAlternatives_escaped hu, ih, Option.map_map]
      rfl
    · rename_i hu
      rw [List.cons_append, List.nil_append, readAlternatives_cons hu, ih, Option.map_map]
      rfl

theorem foldr_prepend (w v : Text) (ws : List Text) : w.foldr prepend (v :: ws) = (w ++ v) :: ws := by
  induction w with
  | nil => rfl
  | cons u w ih => rw [List.foldr_cons, ih, prepend, List.cons_append]

theorem readAlternatives_intercalate (hws : ws ≠ []) :
    readAlternatives ([bar].intercalate (ws.map escapeRegExp)) = some ws := by
  induction ws with
  | nil => exact absurd rfl hws
  | cons w ws ih =>
    cases ws with
    | nil =>
      rw [List.map_singleton, List.intercalate_singleton, ← List.append_nil (escapeRegExp w), readAlternatives_escape]
      simp [readAlternatives, foldr_prepend]
    | cons v ws =>
      have hrest := ih (List.cons_ne_nil v ws)
      rw [List.map_cons, List.intercalate_cons_of_ne_nil (by simp), List.append_assoc, readAlternatives_escape,
        List.singleton_append, readAlternatives_bar, hrest, Option.map_map]
      simp [foldr_prepend]

theorem alternatives_mentionRegex (names : List Text) :
    (mentionRegex names).bind alternatives = if known names = [] then none else some (longestFirst names) := by
  unfold mentionRegex
  split
  · rfl
  · rename_i hknown
    have hne : longestFirst names ≠ [] := by
      intro hnil
      apply hknown
      have hlength := (List.mergeSort_perm (known names) fun a b => b.length ≤ a.length).length_eq
      rw [longestFirst] at hnil
      rw [hnil] at hlength
      exact List.length_eq_zero_iff.mp hlength.symm
    rw [Option.bind_some, alternatives]
    simp only [List.getLast?_append, List.getLast?_singleton, List.dropLast_concat]
    rw [if_pos (by simp), readAlternatives_intercalate hne]

theorem mem_longestFirst (names : List Text) : w ∈ longestFirst names ↔ w ∈ known names :=
  (List.mergeSort_perm (known names) fun a b => b.length ≤ a.length).mem_iff

theorem longestFirst_sorted (names : List Text) : (longestFirst names).Pairwise fun v w => w.length ≤ v.length := by
  have hsorted := @List.pairwise_mergeSort Text (fun a b => b.length ≤ a.length) ?_ ?_ (known names)
  · exact hsorted.imp fun h => of_decide_eq_true h
  · intro a b c hab hbc
    simp only [decide_eq_true_eq] at hab hbc ⊢
    omega
  · intro a b
    simp only [Bool.or_eq_true, decide_eq_true_eq]
    omega

theorem mentionedMemberIds_eq (text : Text) (members : List StaffView) :
    mentionedMemberIds text members =
      (((shownWords (renderBody text (names members))).filterMap (byName members)).filter fun id => id ≠ "").eraseDups := by
  unfold mentionedMemberIds renderBody
  split
  · rw [← List.append_nil (plain text), shownWords_plain]
    rfl
  · rw [allMatches_eq]

theorem mem_mentionedMemberIds {id : Uuid} : id ∈ mentionedMemberIds text members ↔
    id ≠ "" ∧ ∃ w ∈ shownWords (renderBody text (names members)), byName members w = some id := by
  rw [mentionedMemberIds_eq, List.mem_eraseDups, List.mem_filter, List.mem_filterMap, decide_eq_true_eq, and_comm]

theorem mem_sentIds {me id : Uuid} : id ∈ sentIds me members text ↔ id ≠ me ∧ id ≠ "" ∧
    ∃ w ∈ shownWords (renderBody text (names members)), byName members w = some id := by
  rw [sentIds, List.mem_filter, mem_mentionedMemberIds, decide_eq_true_eq]
  tauto

theorem units_ne_nil {name : String} (h : name ≠ "") : Utf16.units name ≠ [] := by
  intro hunits
  cases hchars : name.toList with
  | nil =>
    apply h
    rw [← name.ofList_toList, hchars]
  | cons c cs =>
    rw [Utf16.units, hchars, Utf16.encode, List.flatMap_cons, List.append_eq_nil_iff] at hunits
    have hchar := hunits.1
    unfold Utf16.encodeChar at hchar
    split at hchar <;> cases hchar

theorem wordAt_picked {words : List Text} {name : Text} (hsorted : words.Pairwise fun v w => w.length ≤ v.length)
    (hname : name ∈ words) (after : Text) : ∃ w, wordAt words (name ++ space :: after) = some w ∧
      (w = name ↔ ∀ v ∈ words, ¬ (name ++ [space] <+: v ∧ v <+: name ++ space :: after)) := by
  have hbegins : name <+: name ++ space :: after := List.prefix_append _ _
  obtain ⟨w, hw⟩ : ∃ w, wordAt words (name ++ space :: after) = some w := by
    cases h : wordAt words (name ++ space :: after) with
    | some w => exact ⟨w, rfl⟩
    | none => exact absurd hbegins (wordAt_none.mp h name hname)
  obtain ⟨hmem, hshown⟩ := wordAt_some hw
  refine ⟨w, hw, ?_⟩
  constructor
  · rintro rfl v hv ⟨hlonger, hfits⟩
    have hlength := wordAt_longest hsorted hw hv hfits
    have hmore := hlonger.length_le
    simp only [List.length_append, List.length_singleton] at hmore
    omega
  · intro hnone
    have hlength := wordAt_longest hsorted hw hname hbegins
    obtain ⟨more, rfl⟩ := List.prefix_of_prefix_length_le hbegins hshown hlength
    cases more with
    | nil => exact List.append_nil name
    | cons u more =>
      obtain ⟨rfl, -⟩ := List.cons_prefix_cons.mp ((List.prefix_append_right_inj name).mp hshown)
      refine absurd ⟨?_, hshown⟩ (hnone _ hmem)
      exact ⟨more, by simp⟩

/-- A member who is picked is mentioned there, unless the name and the text behind the caret make a longer name. -/
theorem applyMention_reads (body : Text) (start caret : ℕ) {member : StaffView} (hmember : member ∈ members)
    (hname : member.name ≠ "") (hnames : ∀ m ∈ members, commercialAt ∉ Utf16.units m.name) :
    ∃ w rest, Utf16.units member.name ++ space :: body.drop caret = w ++ rest ∧
      renderBody (applyMention body start caret member) (names members) =
        renderBody (body.take start) (names members) ++ .word w :: renderBody rest (names members) ∧
      (w = Utf16.units member.name ↔ ∀ m ∈ members, ¬ (Utf16.units member.name ++ [space] <+: Utf16.units m.name ∧
        Utf16.units m.name <+: Utf16.units member.name ++ space :: body.drop caret)) ∧
      ∀ me id, byName members w = some id → id ≠ "" →
        (id ∈ sentIds me members (applyMention body start caret member) ↔ id ≠ me) := by
  have hmem : Utf16.units member.name ∈ known (names members) := by
    rw [known, List.mem_filter, decide_eq_true_eq]
    exact ⟨List.mem_map_of_mem hmember, units_ne_nil hname⟩
  have hwords := alternatives_mentionRegex (names members)
  rw [if_neg (List.ne_nil_of_mem hmem)] at hwords
  have hrender (text : Text) : renderBody text (names members) =
      pieces commercialAt (longestFirst (names members)) text := by
    rw [renderBody, hwords]
  have hfrom {w : Text} (hw : w ∈ longestFirst (names members)) : ∃ m ∈ members, Utf16.units m.name = w := by
    rw [mem_longestFirst, known, List.mem_filter] at hw
    exact List.mem_map.mp hw.1
  obtain ⟨w, hw, hpicked⟩ := wordAt_picked (longestFirst_sorted (names members)) ((mem_longestFirst _).mpr hmem)
    (body.drop caret)
  obtain ⟨-, rest, hrest⟩ := wordAt_some hw
  have hreads : renderBody (applyMention body start caret member) (names members) =
      renderBody (body.take start) (names members) ++ .word w :: renderBody rest (names members) := by
    rw [hrender, hrender, hrender, applyMention, pieces_marked ?_ hw, ← hrest, List.drop_left]
    intro v hv
    obtain ⟨m, hm, rfl⟩ := hfrom hv
    exact hnames m hm
  refine ⟨w, rest, hrest.symm, hreads, hpicked.trans ⟨?_, ?_⟩, ?_⟩
  · rintro hnone m hm ⟨hlonger, hfits⟩
    refine hnone _ ?_ ⟨hlonger, hfits⟩
    rw [mem_longestFirst, known, List.mem_filter, decide_eq_true_eq]
    refine ⟨List.mem_map_of_mem hm, ?_⟩
    intro hnil
    rw [hnil] at hlonger
    have hempty := List.prefix_nil.mp hlonger
    simp at hempty
  · intro hnone v hv
    obtain ⟨m, hm, rfl⟩ := hfrom hv
    exact hnone m hm
  · intro me id hid hne
    rw [mem_sentIds, hreads, shownWords_append, shownWords]
    exact ⟨fun h => h.1, fun hother => ⟨hother, hne, w, by simp, hid⟩⟩

end IssueDetailPanel

namespace Sample

def isUUID4 (id : String) : Bool :=
  uuidPattern id && id.toList[14]? = some '4' && (id.toList[19]?).any fun c => c ∈ ['8', '9', 'a', 'b', 'A', 'B']

def validator : Validator := ⟨String.length, isUUID4⟩

end Sample

namespace IssueDetailPanel

end IssueDetailPanel

namespace Sample

def ashas : List StaffView := [⟨"asha", "Asha", "asha@cimp"⟩, ⟨"rao", "Asha Rao", "rao@cimp"⟩]

end Sample

namespace IssueDetailPanel

theorem applyMention_reads_ashas :
    ∃ w rest, Utf16.units "Asha" ++ space :: (Utf16.units "@AsRao").drop 3 = w ++ rest ∧
      renderBody (applyMention (Utf16.units "@AsRao") 0 3 ⟨"asha", "Asha", "asha@cimp"⟩) (names Sample.ashas) =
        renderBody [] (names Sample.ashas) ++ .word w :: renderBody rest (names Sample.ashas) := by
  have hmember : ⟨"asha", "Asha", "asha@cimp"⟩ ∈ Sample.ashas := List.mem_cons_self
  obtain ⟨w, rest, hrest, hreads, -⟩ :=
    applyMention_reads (Utf16.units "@AsRao") 0 3 hmember (by decide) (by decide)
  exact ⟨w, rest, hrest, hreads⟩

end IssueDetailPanel

end Cimp
