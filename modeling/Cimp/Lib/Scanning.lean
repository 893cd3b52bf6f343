import Mathlib.Data.List.Basic
import Mathlib.Data.List.Infix
import Mathlib.Tactic.Common

namespace Cimp.Scanning

universe u

variable {α : Type u} [DecidableEq α]

/-- A match of a mark with a word behind it, with what it passes over and what it leaves. -/
structure Match (α : Type u) where
  before : List α
  word : List α
  after : List α

/-- The first of the words, in their order, that the text begins with. -/
def wordAt (words : List (List α)) (text : List α) : Option (List α) := words.find? fun w => w.isPrefixOf text

/-- The leftmost match. -/
def exec (mark : α) (words : List (List α)) : List α → Option (Match α)
  | [] => none
  | c :: cs =>
    match if c = mark then wordAt words cs else none with
    | some w => some ⟨[], w, cs.drop w.length⟩
    | none => (exec mark words cs).map fun m => { m with before := c :: m.before }

inductive Piece (α : Type u)
  | plain (text : List α)
  | word (word : List α)
deriving DecidableEq

def Piece.shown (mark : α) : Piece α → List α
  | .plain text => text
  | .word w => mark :: w

def plain (text : List α) : List (Piece α) := if text = [] then [] else [.plain text]

variable {mark : α} {words : List (List α)} {text : List α} {m : Match α}

theorem wordAt_some {w : List α} (h : wordAt words text = some w) : w ∈ words ∧ w <+: text := by
  refine ⟨List.mem_of_find?_eq_some h, ?_⟩
  simpa using List.find?_some h

theorem wordAt_none : wordAt words text = none ↔ ∀ w ∈ words, ¬ w <+: text := by
  simp [wordAt, List.find?_eq_none]

theorem exec_eq (h : exec mark words text = some m) :
    text = m.before ++ mark :: (m.word ++ m.after) ∧ wordAt words (m.word ++ m.after) = some m.word := by
  induction text generalizing m with
  | nil => cases h
  | cons c cs ih =>
    unfold exec at h
    split at h
    · rename_i w hword
      cases h
      split at hword
      · rename_i hmark
        obtain ⟨-, hbegins⟩ := wordAt_some hword
        have hsplit : w ++ cs.drop w.length = cs := by
          obtain ⟨rest, rfl⟩ := hbegins
          rw [List.drop_left]
        simp only [hsplit, hmark, List.nil_append]
        exact ⟨trivial, hword⟩
      · cases hword
    · obtain ⟨m', hm', rfl⟩ := Option.map_eq_some_iff.mp h
      obtain ⟨htext, hword⟩ := ih hm'
      refine ⟨?_, hword⟩
      rw [List.cons_append, ← htext]

theorem exec_length (h : exec mark words text = some m) : m.after.length < text.length := by
  rw [(exec_eq h).1]
  simp only [List.length_append, List.length_cons]
  omega

/-- No word is marked where the text begins. -/
def Unmarked (mark : α) (words : List (List α)) (text : List α) : Prop := ∀ w ∈ words, ¬ mark :: w <+: text

/-- The matches of a global search, one after the other, and the text between them. -/
def pieces (mark : α) (words : List (List α)) (text : List α) : List (Piece α) :=
  match h : exec mark words text with
  | none => plain text
  | some m =>
    have := exec_length h
    plain m.before ++ .word m.word :: pieces mark words m.after
termination_by text.length

theorem pieces_none (h : exec mark words text = none) : pieces mark words text = plain text := by
  rw [pieces]
  split
  · rfl
  · rename_i hm
    rw [h] at hm
    cases hm

theorem pieces_some (h : exec mark words text = some m) :
    pieces mark words text = plain m.before ++ .word m.word :: pieces mark words m.after := by
  rw [pieces]
  split
  · rename_i hnone
    rw [h] at hnone
    cases hnone
  · rename_i hm
    rw [h] at hm
    cases hm
    rfl

theorem pieces_rule {P : List α → List (Piece α) → Prop}
    (none : ∀ text, exec mark words text = none → P text (plain text))
    (some : ∀ text m, exec mark words text = some m → P m.after (pieces mark words m.after) →
      P text (plain m.before ++ .word m.word :: pieces mark words m.after)) (text : List α) :
    P text (pieces mark words text) := by
  induction hn : text.length using Nat.strong_induction_on generalizing text with
  | _ n ih =>
    cases h : exec mark words text with
    | none =>
      rw [pieces_none h]
      exact none text h
    | some m =>
      rw [pieces_some h]
      apply some text m h
      exact ih m.after.length (hn ▸ exec_length h) m.after rfl

/-- A word is read wherever one is marked, and then the longest that is there. -/
def Reads (mark : α) (words : List (List α)) : List (Piece α) → Prop
  | [] => True
  | .plain t :: ps => t ≠ [] ∧ (∀ i < t.length, Unmarked mark words (t.drop i ++ ps.flatMap (Piece.shown mark))) ∧
      Reads mark words ps
  | .word w :: ps => w ∈ words ∧ (∀ v ∈ words, v <+: w ++ ps.flatMap (Piece.shown mark) → v.length ≤ w.length) ∧
      Reads mark words ps

theorem wordAt_longest (hsorted : words.Pairwise fun v w => w.length ≤ v.length) {v w : List α}
    (h : wordAt words text = some w) (hv : v ∈ words) (hbegins : v <+: text) : v.length ≤ w.length := by
  obtain ⟨-, before, after, rfl, hbefore⟩ := List.find?_eq_some_iff_append.mp h
  rcases List.mem_append.mp hv with hfirst | hlater
  · have hnot := hbefore v hfirst
    rw [List.isPrefixOf_iff_prefix.mpr hbegins] at hnot
    cases hnot
  · rcases List.mem_cons.mp hlater with rfl | hlast
    · exact le_refl _
    · exact (List.pairwise_cons.mp (List.pairwise_append.mp hsorted).2.1).1 v hlast

omit [DecidableEq α] in
theorem Reads.congr {words' : List (List α)} (hwords : ∀ w, w ∈ words ↔ w ∈ words') {ps : List (Piece α)}
    (h : Reads mark words ps) : Reads mark words' ps := by
  induction ps with
  | nil => trivial
  | cons p ps ih =>
    cases p with
    | plain t =>
      obtain ⟨hne, hplain, hps⟩ := h
      exact ⟨hne, fun i hi w hw => hplain i hi w ((hwords w).mpr hw), ih hps⟩
    | word w =>
      obtain ⟨hw, hlongest, hps⟩ := h
      exact ⟨(hwords w).mp hw, fun v hv => hlongest v ((hwords v).mpr hv), ih hps⟩

/-- The words that a list of pieces shows, in their order. -/
def shownWords : List (Piece α) → List (List α)
  | [] => []
  | .plain _ :: ps => shownWords ps
  | .word w :: ps => w :: shownWords ps

/-- The words of a global search alone. -/
def allMatches (mark : α) (words : List (List α)) (text : List α) : List (List α) :=
  match h : exec mark words text with
  | none => []
  | some m =>
    have := exec_length h
    m.word :: allMatches mark words m.after
termination_by text.length

omit [DecidableEq α] in
theorem shownWords_plain (text : List α) (ps : List (Piece α)) : shownWords (plain text ++ ps) = shownWords ps := by
  unfold plain
  split <;> rfl

omit [DecidableEq α] in
theorem shownWords_append (ps qs : List (Piece α)) : shownWords (ps ++ qs) = shownWords ps ++ shownWords qs := by
  induction ps with
  | nil => rfl
  | cons p ps ih => cases p <;> simp [shownWords, ih]

theorem allMatches_eq (mark : α) (words : List (List α)) (text : List α) :
    allMatches mark words text = shownWords (pieces mark words text) := by
  apply pieces_rule (P := fun text ps => allMatches mark words text = shownWords ps)
  · intro text h
    rw [allMatches, ← List.append_nil (plain text), shownWords_plain]
    split
    · rfl
    · rename_i hm
      rw [h] at hm
      cases hm
  · intro text m h ih
    rw [allMatches, shownWords_plain, shownWords, ← ih]
    split
    · rename_i hnone
      rw [h] at hnone
      cases hnone
    · rename_i hm
      rw [h] at hm
      cases hm
      rfl

omit [DecidableEq α] in
theorem prefix_marked_iff {w before : List α} (hw : mark ∉ w) (rest : List α) :
    w <+: before ++ mark :: rest ↔ w <+: before := by
  induction w generalizing before with
  | nil => simp
  | cons c w ih =>
    rw [List.mem_cons, not_or] at hw
    cases before with
    | nil =>
      apply iff_of_false
      · intro h
        exact hw.1 (List.cons_prefix_cons.mp h).1.symm
      · intro h
        cases List.prefix_nil.mp h
    | cons b before => rw [List.cons_append, List.cons_prefix_cons, List.cons_prefix_cons, ih hw.2]

theorem wordAt_marked (hwords : ∀ w ∈ words, mark ∉ w) (before rest : List α) :
    wordAt words (before ++ mark :: rest) = wordAt words before := by
  induction words with
  | nil => rfl
  | cons w words ih =>
    have hw : w.isPrefixOf (before ++ mark :: rest) = w.isPrefixOf before := by
      rw [Bool.eq_iff_iff, List.isPrefixOf_iff_prefix, List.isPrefixOf_iff_prefix,
        prefix_marked_iff (hwords w List.mem_cons_self)]
    have hrest := ih fun v hv => hwords v (List.mem_cons_of_mem w hv)
    simp only [wordAt] at hrest ⊢
    rw [List.find?_cons, List.find?_cons, hw, hrest]

theorem exec_marked (hwords : ∀ w ∈ words, mark ∉ w) (before rest : List α) :
    exec mark words (before ++ mark :: rest) =
      (exec mark words before).elim
        ((exec mark words (mark :: rest)).map fun m => { m with before := before ++ m.before })
        fun m => some { m with after := m.after ++ mark :: rest } := by
  induction before with
  | nil => simp [exec]
  | cons c cs ih =>
    rw [List.cons_append, exec, exec, wordAt_marked hwords]
    split
    · rename_i w hword
      have hlength : w.length ≤ cs.length := by
        split at hword
        · exact (wordAt_some hword).2.length_le
        · cases hword
      simp only [List.drop_append_of_le_length hlength, Option.elim_some]
    · rw [ih]
      cases exec mark words cs with
      | some m => simp
      | none => simp [Function.comp_def]

theorem pieces_marked (hwords : ∀ w ∈ words, mark ∉ w) {rest w : List α} (h : wordAt words rest = some w)
    (before : List α) :
    pieces mark words (before ++ mark :: rest) =
      pieces mark words before ++ .word w :: pieces mark words (rest.drop w.length) := by
  have hrest : exec mark words (mark :: rest) = some ⟨[], w, rest.drop w.length⟩ := by
    rw [exec, if_pos rfl, h]
  apply pieces_rule (P := fun before ps => pieces mark words (before ++ mark :: rest) =
    ps ++ .word w :: pieces mark words (rest.drop w.length))
  · intro before hbefore
    apply pieces_some (m := ⟨before, w, rest.drop w.length⟩)
    rw [exec_marked hwords, hbefore, hrest]
    simp
  · intro before m hm ih
    rw [List.append_assoc, List.cons_append, ← ih]
    apply pieces_some (m := { m with after := m.after ++ mark :: rest })
    rw [exec_marked hwords, hm, Option.elim_some]

end Cimp.Scanning
