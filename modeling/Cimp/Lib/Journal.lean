import Mathlib.Data.List.Basic
import Mathlib.Tactic.Common

namespace Cimp.Journal

universe u v

-- a journal lists the changes of one value, each entry with the value it found and the one it left
variable {ε : Type u} {V : Type v} (before after : ε → V)

def replay (v : V) (es : List ε) : V := es.foldl (fun _ e => after e) v

def Consistent : V → List ε → Prop
  | _, [] => True
  | v, e :: es => before e = v ∧ Consistent (after e) es

def Records (v : V) (es : List ε) (w : V) : Prop := Consistent before after v es ∧ replay after v es = w

variable {before after}

theorem replay_append (v : V) (es fs : List ε) :
    replay after v (es ++ fs) = replay after (replay after v es) fs := List.foldl_append

theorem consistent_append {v : V} {es fs : List ε} :
    Consistent before after v (es ++ fs) ↔
      Consistent before after v es ∧ Consistent before after (replay after v es) fs := by
  induction es generalizing v with
  | nil => exact ⟨fun h => ⟨trivial, h⟩, fun h => h.2⟩
  | cons e es ih =>
    simp only [List.cons_append, Consistent, ih, and_assoc]
    exact Iff.rfl

theorem Records.nil (v : V) : Records before after v [] v := ⟨trivial, rfl⟩

theorem Records.single {v : V} {e : ε} (h : before e = v) : Records before after v [e] (after e) :=
  ⟨⟨h, trivial⟩, rfl⟩

theorem Records.append {u v w : V} {es fs : List ε} (h : Records before after u es v)
    (h' : Records before after v fs w) : Records before after u (es ++ fs) w := by
  refine ⟨consistent_append.mpr ⟨h.1, ?_⟩, ?_⟩
  · rw [h.2]
    exact h'.1
  · rw [replay_append, h.2]
    exact h'.2

theorem replay_map {δ : Type u} (f : δ → ε) (v : V) (es : List δ) :
    replay after v (es.map f) = replay (after ∘ f) v es := List.foldl_map

theorem consistent_map {δ : Type u} {f : δ → ε} {v : V} {es : List δ} :
    Consistent before after v (es.map f) ↔ Consistent (before ∘ f) (after ∘ f) v es := by
  induction es generalizing v with
  | nil => exact Iff.rfl
  | cons e es ih => simp only [List.map_cons, Consistent, ih, Function.comp_apply]

theorem Records.map {δ : Type u} {f : δ → ε} {v w : V} {es : List δ}
    (h : Records (before ∘ f) (after ∘ f) v es w) : Records before after v (es.map f) w :=
  ⟨consistent_map.mpr h.1, (replay_map f v es).trans h.2⟩

end Cimp.Journal
