import Mathlib.Data.List.Basic
import Mathlib.Tactic.Common

namespace Cimp.Sql

universe u

/-- What a condition comes to on a row; `none` is UNKNOWN. -/
abbrev Truth := Option Bool

namespace Truth

def not (a : Truth) : Truth := a.map Bool.not

def and : Truth → Truth → Truth
  | some false, _ => some false
  | _, some false => some false
  | some true, some true => some true
  | _, _ => none

def or : Truth → Truth → Truth
  | some true, _ => some true
  | _, some true => some true
  | some false, some false => some false
  | _, _ => none

variable {a b c : Truth}

theorem and_assoc (a b c : Truth) : (a.and b).and c = a.and (b.and c) := by
  rcases a with _ | _ | _ <;> rcases b with _ | _ | _ <;> rcases c with _ | _ | _ <;> rfl

@[simp] theorem true_and (a : Truth) : Truth.and (some true) a = a := by
  rcases a with _ | _ | _ <;> rfl

@[simp] theorem false_or (a : Truth) : Truth.or (some false) a = a := by
  rcases a with _ | _ | _ <;> rfl

@[simp] theorem and_eq_true : a.and b = some true ↔ a = some true ∧ b = some true := by
  rcases a with _ | _ | _ <;> rcases b with _ | _ | _ <;> decide

@[simp] theorem or_eq_true : a.or b = some true ↔ a = some true ∨ b = some true := by
  rcases a with _ | _ | _ <;> rcases b with _ | _ | _ <;> decide

@[simp] theorem not_eq_true : a.not = some true ↔ a = some false := by
  rcases a with _ | _ | _ <;> decide

end Truth

inductive Word (α : Type u)
  | atom (a : α)
  | and
  | or
  | not
  | lparen
  | rparen

variable {α : Type u}

/-- What has been read since the innermost open parenthesis: complete disjuncts, and the factors of the next. -/
structure Frame where
  disjuncts : Truth
  factors : Truth
  negated : Bool

namespace Frame

def start : Frame := ⟨some false, some true, false⟩

def value (f : Frame) : Truth := f.disjuncts.or f.factors

def factor (f : Frame) (t : Truth) : Frame :=
  { f with factors := f.factors.and (if f.negated then t.not else t), negated := false }

def negate (f : Frame) : Frame := { f with negated := !f.negated }

def disjunct (f : Frame) : Frame := ⟨f.value, some true, false⟩

end Frame

/-- Before an operand or behind one, with the frames of the parentheses around. -/
inductive Reading
  | operand (f : Frame) (outer : List Frame)
  | operator (f : Frame) (outer : List Frame)

/-- NOT binds tighter than AND, and AND tighter than OR. -/
def advance (v : α → Truth) : Reading → Word α → Option Reading
  | .operand f outer, .atom a => some (.operator (f.factor (v a)) outer)
  | .operand f outer, .not => some (.operand f.negate outer)
  | .operand f outer, .lparen => some (.operand .start (f :: outer))
  | .operator f outer, .and => some (.operand f outer)
  | .operator f outer, .or => some (.operand f.disjunct outer)
  | .operator f (g :: outer), .rparen => some (.operator (g.factor f.value) outer)
  | _, _ => none

def Reading.value : Reading → Option Truth
  | .operator f [] => some f.value
  | _ => none

def meaning (v : α → Truth) (text : List (Word α)) : Option Truth :=
  (text.foldlM (advance v) (.operand .start [])).bind Reading.value

/-- The text can stand between two ANDs, and comes to `t` there. -/
def Conjunct (v : α → Truth) (text : List (Word α)) (t : Truth) : Prop :=
  ∀ f outer, f.negated = false → text.foldlM (advance v) (.operand f outer) = some (.operator (f.factor t) outer)

variable {v : α → Truth} {text : List (Word α)} {t u : Truth}

namespace Reading

def under (below : List Frame) : Reading → Reading
  | operand f outer => operand f (outer ++ below)
  | operator f outer => operator f (outer ++ below)

end Reading

theorem advance_under {r r' : Reading} {w : Word α} (h : advance v r w = some r') (below : List Frame) :
    advance v (r.under below) w = some (r'.under below) := by
  unfold advance at h
  split at h <;> cases h <;> rfl

theorem foldlM_under {r r' : Reading} (h : text.foldlM (advance v) r = some r') (below : List Frame) :
    text.foldlM (advance v) (r.under below) = some (r'.under below) := by
  induction text generalizing r with
  | nil =>
    cases h
    rfl
  | cons w text ih =>
    rw [List.foldlM_cons] at h ⊢
    obtain ⟨m, hm, hrest⟩ := Option.bind_eq_some_iff.mp h
    rw [advance_under hm below]
    exact ih hrest

theorem Conjunct.atom (v : α → Truth) (a : α) : Conjunct v [.atom a] (v a) := fun _ _ _ => rfl

theorem Conjunct.not_atom (v : α → Truth) (a : α) : Conjunct v [.not, .atom a] (v a).not := by
  rintro ⟨disjuncts, factors, negated⟩ outer hf
  cases hf
  rfl

theorem Conjunct.paren (h : meaning v text = some t) : Conjunct v (.lparen :: (text ++ [.rparen])) t := by
  intro f outer _
  obtain ⟨r, hr, hvalue⟩ := Option.bind_eq_some_iff.mp h
  unfold Reading.value at hvalue
  split at hvalue
  · cases hvalue
    rename_i g
    have hinner := foldlM_under hr (f :: outer)
    rw [List.foldlM_cons, advance, Option.bind_eq_bind, Option.bind_some, List.foldlM_append]
    change ((text.foldlM (advance v) (.operand .start (f :: outer))) >>= _) = _
    rw [show text.foldlM (advance v) (.operand .start (f :: outer)) = some (.operator g (f :: outer)) from hinner]
    rfl
  · cases hvalue

theorem meaning_or (v : α → Truth) (a b : α) : meaning v [.atom a, .or, .atom b] = some ((v a).or (v b)) := by
  simp [meaning, advance, Reading.value, Frame.factor, Frame.disjunct, Frame.start, Frame.value]

theorem meaning_and (v : α → Truth) (a b : α) : meaning v [.atom a, .and, .atom b] = some ((v a).and (v b)) := by
  simp [meaning, advance, Reading.value, Frame.factor, Frame.start, Frame.value]

theorem Frame.factor_factor (f : Frame) (t u : Truth) (h : f.negated = false) :
    (f.factor t).factor u = f.factor (t.and u) := by
  simp [Frame.factor, h, Truth.and_assoc]

theorem Conjunct.and {text' : List (Word α)} (h : Conjunct v text t) (h' : Conjunct v text' u) :
    Conjunct v (text ++ .and :: text') (t.and u) := by
  intro f outer hf
  rw [List.foldlM_append, h f outer hf, ← f.factor_factor t u hf]
  exact h' _ outer rfl

def conjoin : List (List (Word α)) → List (Word α)
  | [] => []
  | [text] => text
  | text :: texts => text ++ .and :: conjoin texts

def Holds (v : α → Truth) (texts : List (List (Word α))) : Prop :=
  texts = [] ∨ meaning v (conjoin texts) = some (some true)

instance (v : α → Truth) (texts : List (List (Word α))) : Decidable (Holds v texts) :=
  match texts with
  | [] => isTrue (Or.inl rfl)
  | text :: texts => decidable_of_iff (meaning v (conjoin (text :: texts)) = some (some true)) (by simp [Holds])

theorem Conjunct.meaning_eq (h : Conjunct v text t) : meaning v text = some t := by
  rw [meaning, h .start [] rfl]
  simp [Reading.value, Frame.factor, Frame.start, Frame.value]

theorem Conjunct.unique (h : Conjunct v text t) (h' : Conjunct v text u) : t = u :=
  Option.some_inj.mp (h.meaning_eq.symm.trans h'.meaning_eq)

theorem Conjunct.holds_iff (h : Conjunct v text t) : Holds v [text] ↔ t = some true := by
  simp [Holds, conjoin, h.meaning_eq]

theorem conjunct_conjoin {texts : List (List (Word α))} (hne : texts ≠ [])
    (h : ∀ text ∈ texts, ∃ t, Conjunct v text t) :
    ∃ t, Conjunct v (conjoin texts) t ∧ (t = some true ↔ ∀ text ∈ texts, Holds v [text]) := by
  induction texts using conjoin.induct with
  | case1 => exact absurd rfl hne
  | case2 text =>
    obtain ⟨t, ht⟩ := h text List.mem_cons_self
    refine ⟨t, ht, ?_⟩
    rw [List.forall_mem_singleton, ht.holds_iff]
  | case3 text texts hmore ih =>
    obtain ⟨t, ht⟩ := h text List.mem_cons_self
    obtain ⟨u, hu, hall⟩ := ih hmore fun text hmem => h text (List.mem_cons_of_mem _ hmem)
    rw [conjoin]
    · refine ⟨t.and u, ht.and hu, ?_⟩
      rw [List.forall_mem_cons, ht.holds_iff, Truth.and_eq_true, hall]
    · exact hmore

theorem holds_iff {texts : List (List (Word α))} (h : ∀ text ∈ texts, ∃ t, Conjunct v text t) :
    Holds v texts ↔ ∀ text ∈ texts, Holds v [text] := by
  by_cases hne : texts = []
  · subst hne
    exact iff_of_true (Or.inl rfl) fun _ hmem => absurd hmem List.not_mem_nil
  · obtain ⟨t, ht, hall⟩ := conjunct_conjoin hne h
    rw [← hall, Holds, ht.meaning_eq, Option.some_inj, or_iff_right hne]

theorem foldlM_congr {v' : α → Truth} (h : ∀ a, .atom a ∈ text → v a = v' a) (r : Reading) :
    text.foldlM (advance v) r = text.foldlM (advance v') r := by
  induction text generalizing r with
  | nil => rfl
  | cons w text ih =>
    have hadvance : advance v r w = advance v' r w := by
      unfold advance
      split
      · rw [h _ List.mem_cons_self]
      all_goals rfl
    rw [List.foldlM_cons, List.foldlM_cons, hadvance]
    exact congrArg _ (funext fun r' => ih (fun a ha => h a (List.mem_cons_of_mem w ha)) r')

theorem holds_congr {v' : α → Truth} (h : ∀ a, .atom a ∈ text → v a = v' a) : Holds v [text] ↔ Holds v' [text] := by
  simp only [Holds, conjoin, meaning, foldlM_congr h]

end Cimp.Sql
