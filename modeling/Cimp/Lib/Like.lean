import Mathlib.Data.List.Infix

namespace Cimp.Like

universe u

variable {α : Type u}

/-- The characters that a LIKE pattern gives a meaning. -/
structure Wildcards (α : Type u) where
  many : α
  one : α
  escape : α
  one_ne_many : one ≠ many
  escape_ne_many : escape ≠ many
  escape_ne_one : escape ≠ one

variable (w : Wildcards α)

def Wildcards.special : List α := [w.many, w.one, w.escape]

def substring (s : List α) : List α := w.many :: (s ++ [w.many])

variable {w} {s t p : List α} {c x : α}

theorem not_special (hmany : c ≠ w.many) (hone : c ≠ w.one) (hescape : c ≠ w.escape) : c ∉ w.special := by
  simp [Wildcards.special, hmany, hone, hescape]

/-- A mapping that moves no character into or out of the special ones, such as one to lower case. -/
structure Keeps (w : Wildcards α) (f : α → α) : Prop where
  many : ∀ c, f c = w.many ↔ c = w.many
  one : ∀ c, f c = w.one ↔ c = w.one
  escape : ∀ c, f c = w.escape ↔ c = w.escape

theorem Keeps.special {f : α → α} (hf : Keeps w f) : f c ∈ w.special ↔ c ∈ w.special := by
  simp [Wildcards.special, hf.many, hf.one, hf.escape]

theorem Keeps.substring_map {f : α → α} (hf : Keeps w f) (s : List α) :
    (substring w s).map f = substring w (s.map f) := by
  have hmany := (hf.many w.many).mpr rfl
  simp [substring, hmany]

variable [DecidableEq α] (w)

/-- Does the text match the pattern? A pattern that ends in the escape matches nothing. -/
def like : List α → List α → Bool
  | [], s => s.isEmpty
  | c :: p, s =>
    if c = w.many then s.tails.any (like p)
    else if c = w.one then
      match s with
      | [] => false
      | _ :: s => like p s
    else if c = w.escape then
      match p, s with
      | d :: p, e :: s => d = e && like p s
      | _, _ => false
    else
      match s with
      | [] => false
      | d :: s => c = d && like p s

def escape (s : List α) : List α := s.flatMap fun c => if c ∈ w.special then [w.escape, c] else [c]

variable {w}

theorem like_cons : like w (c :: p) s =
    if c = w.many then s.tails.any (like w p)
    else if c = w.one then
      match s with
      | [] => false
      | _ :: s => like w p s
    else if c = w.escape then
      match p, s with
      | d :: p, e :: s => d = e && like w p s
      | _, _ => false
    else
      match s with
      | [] => false
      | d :: s => c = d && like w p s := by
  rw [like.eq_def]

theorem like_many : like w (w.many :: p) s = true ↔ ∃ a b, s = a ++ b ∧ like w p b = true := by
  rw [like_cons]
  simp only [if_true, List.any_eq_true, List.mem_tails]
  constructor
  · rintro ⟨b, ⟨a, rfl⟩, hb⟩
    exact ⟨a, b, rfl, hb⟩
  · rintro ⟨a, b, rfl, hb⟩
    exact ⟨b, List.suffix_append a b, hb⟩

theorem like_one : like w (w.one :: p) s = true ↔ ∃ d s', s = d :: s' ∧ like w p s' = true := by
  rw [like_cons]
  simp only [if_neg w.one_ne_many, if_true]
  cases s with
  | nil => simp
  | cons d s => simp

theorem like_literal {d : α} : (decide (c = d) && like w p s) = true ↔ ∃ s', d :: s = c :: s' ∧ like w p s' = true := by
  simp only [Bool.and_eq_true, decide_eq_true_eq, List.cons.injEq]
  constructor
  · rintro ⟨rfl, h⟩
    exact ⟨s, ⟨rfl, rfl⟩, h⟩
  · rintro ⟨s', ⟨rfl, rfl⟩, h⟩
    exact ⟨rfl, h⟩

theorem like_escaped : like w (w.escape :: c :: p) s = true ↔ ∃ s', s = c :: s' ∧ like w p s' = true := by
  rw [like_cons]
  simp only [if_neg w.escape_ne_many, if_neg w.escape_ne_one, if_true]
  cases s with
  | nil => simp
  | cons d s => exact like_literal

theorem like_plain (hc : c ∉ w.special) : like w (c :: p) s = true ↔ ∃ s', s = c :: s' ∧ like w p s' = true := by
  simp only [Wildcards.special, List.mem_cons, List.not_mem_nil, or_false, not_or] at hc
  rw [like_cons]
  simp only [if_neg hc.1, if_neg hc.2.1, if_neg hc.2.2]
  cases s with
  | nil => simp
  | cons d s => exact like_literal

theorem like_only_many : like w [w.many] s = true := like_many.mpr ⟨s, [], (List.append_nil s).symm, rfl⟩

theorem like_escape_append : like w (escape w s ++ p) t = true ↔ ∃ t', t = s ++ t' ∧ like w p t' = true := by
  induction s generalizing t with
  | nil => simp [escape]
  | cons c s ih =>
    have hcons : escape w (c :: s) ++ p = (if c ∈ w.special then [w.escape, c] else [c]) ++ (escape w s ++ p) := by
      rw [escape, List.flatMap_cons, List.append_assoc]
      rfl
    have hhead : like w (escape w (c :: s) ++ p) t = true ↔ ∃ s', t = c :: s' ∧ like w (escape w s ++ p) s' = true := by
      rw [hcons]
      split
      · exact like_escaped
      · rename_i hc
        exact like_plain hc
    rw [hhead]
    constructor
    · rintro ⟨s', rfl, h⟩
      obtain ⟨t', rfl, hp⟩ := ih.mp h
      exact ⟨t', rfl, hp⟩
    · rintro ⟨t', rfl, hp⟩
      exact ⟨s ++ t', rfl, ih.mpr ⟨t', rfl, hp⟩⟩

/-- The pattern for a text, with its special characters escaped, finds the text itself and nothing else. -/
theorem like_substring_escape : like w (substring w (escape w s)) t = true ↔ s <:+: t := by
  rw [substring, like_many]
  constructor
  · rintro ⟨a, b, rfl, h⟩
    obtain ⟨t', rfl, _⟩ := like_escape_append.mp h
    exact ⟨a, t', by rw [List.append_assoc]⟩
  · rintro ⟨a, t', rfl⟩
    exact ⟨a, s ++ t', by rw [List.append_assoc], like_escape_append.mpr ⟨t', rfl, like_only_many⟩⟩

theorem escape_of_plain (h : ∀ c ∈ s, c ∉ w.special) : escape w s = s := by
  induction s with
  | nil => rfl
  | cons c s ih =>
    rw [escape, List.flatMap_cons, if_neg (h c List.mem_cons_self)]
    exact congrArg (c :: ·) (ih fun d hd => h d (List.mem_cons_of_mem c hd))

/-- A shortest text that the pattern for `s` matches, with `x` for every single wildcard. -/
def shortest (w : Wildcards α) (x : α) : List α → List α
  | [] => []
  | c :: s =>
    if c = w.many then shortest w x s
    else if c = w.one then x :: shortest w x s
    else if c = w.escape then
      match s with
      | [] => [w.many]
      | d :: s => d :: shortest w x s
    else c :: shortest w x s

theorem shortest_cons : shortest w x (c :: s) =
    if c = w.many then shortest w x s
    else if c = w.one then x :: shortest w x s
    else if c = w.escape then
      match s with
      | [] => [w.many]
      | d :: s => d :: shortest w x s
    else c :: shortest w x s := by
  rw [shortest.eq_def]

theorem shortest_many : shortest w x (w.many :: s) = shortest w x s := by
  rw [shortest_cons]
  exact if_pos rfl

theorem shortest_one : shortest w x (w.one :: s) = x :: shortest w x s := by
  rw [shortest_cons]
  simp only [if_neg w.one_ne_many, if_true]

theorem shortest_escape_nil : shortest w x [w.escape] = [w.many] := by
  rw [shortest_cons]
  simp only [if_neg w.escape_ne_many, if_neg w.escape_ne_one, if_true]

theorem shortest_escape_cons : shortest w x (w.escape :: c :: s) = c :: shortest w x s := by
  rw [shortest_cons]
  simp only [if_neg w.escape_ne_many, if_neg w.escape_ne_one, if_true]

theorem shortest_plain (hc : c ∉ w.special) : shortest w x (c :: s) = c :: shortest w x s := by
  simp only [Wildcards.special, List.mem_cons, List.not_mem_nil, or_false, not_or] at hc
  rw [shortest_cons]
  simp only [if_neg hc.1, if_neg hc.2.1, if_neg hc.2.2]

theorem like_shortest (w : Wildcards α) (x : α) (s : List α) : like w (s ++ [w.many]) (shortest w x s) = true := by
  induction s using shortest.induct w with
  | case1 => exact like_only_many
  | case2 s ih =>
    rw [shortest_many]
    exact like_many.mpr ⟨[], _, rfl, ih⟩
  | case3 s _ ih =>
    rw [shortest_one]
    exact like_one.mpr ⟨x, _, rfl, ih⟩
  | case4 =>
    rw [shortest_escape_nil]
    exact like_escaped.mpr ⟨[], rfl, rfl⟩
  | case5 d s _ _ ih =>
    rw [shortest_escape_cons]
    exact like_escaped.mpr ⟨_, rfl, ih⟩
  | case6 c s hmany hone hescape ih =>
    have hc := not_special hmany hone hescape
    rw [shortest_plain hc]
    exact (like_plain hc).mpr ⟨_, rfl, ih⟩

theorem length_shortest_le (w : Wildcards α) (x : α) (s : List α) : (shortest w x s).length ≤ s.length := by
  induction s using shortest.induct w with
  | case1 => exact Nat.le_refl _
  | case2 s ih =>
    rw [shortest_many]
    exact ih.trans (Nat.le_succ _)
  | case3 s _ ih =>
    rw [shortest_one]
    exact Nat.succ_le_succ ih
  | case4 =>
    rw [shortest_escape_nil]
    exact Nat.le_refl _
  | case5 d s _ _ ih =>
    rw [shortest_escape_cons]
    exact (Nat.succ_le_succ ih).trans (Nat.le_succ _)
  | case6 c s hmany hone hescape ih =>
    rw [shortest_plain (not_special hmany hone hescape)]
    exact Nat.succ_le_succ ih

theorem plain_of_shortest (hx : x ≠ w.one) (h : shortest w x s = s) : ∀ c ∈ s, c ∉ w.special := by
  induction s using shortest.induct w with
  | case1 => exact fun _ hc => absurd hc List.not_mem_nil
  | case2 s ih =>
    rw [shortest_many] at h
    have hle := length_shortest_le w x s
    rw [h] at hle
    exact absurd hle (Nat.not_succ_le_self _)
  | case3 s _ ih =>
    rw [shortest_one] at h
    exact absurd (List.cons.inj h).1 hx
  | case4 hmany _ =>
    rw [shortest_escape_nil] at h
    exact absurd (List.cons.inj h).1.symm hmany
  | case5 d s _ _ ih =>
    rw [shortest_escape_cons] at h
    have hle := length_shortest_le w x s
    have hlength := congrArg List.length h
    simp only [List.length_cons] at hlength
    omega
  | case6 c s hmany hone hescape ih =>
    have hc := not_special hmany hone hescape
    rw [shortest_plain hc] at h
    exact List.forall_mem_cons.mpr ⟨hc, ih (List.cons.inj h).2⟩

theorem not_infix_shortest (hx : x ≠ w.one) (hc : c ∈ s) (hspecial : c ∈ w.special) : ¬ s <:+: shortest w x s := by
  intro h
  have heq := h.eq_of_length_le (length_shortest_le w x s)
  exact plain_of_shortest hx heq.symm c hc hspecial

theorem like_substring_shortest (w : Wildcards α) (x : α) (s : List α) :
    like w (substring w s) (shortest w x s) = true :=
  like_many.mpr ⟨[], _, rfl, like_shortest w x s⟩

theorem Keeps.escape_map {f : α → α} (hf : Keeps w f) (s : List α) :
    (Like.escape w s).map f = Like.escape w (s.map f) := by
  have hescape := (hf.escape w.escape).mpr rfl
  induction s with
  | nil => rfl
  | cons c s ih =>
    rw [Like.escape, List.flatMap_cons, List.map_append, List.map_cons, Like.escape, List.flatMap_cons]
    refine congrArg₂ (· ++ ·) ?_ ih
    by_cases hc : c ∈ w.special
    · rw [if_pos hc, if_pos (hf.special.mpr hc), List.map_cons, List.map_cons, List.map_nil, hescape]
    · rw [if_neg hc, if_neg (mt hf.special.mp hc), List.map_cons, List.map_nil]

theorem Keeps.shortest_map {f : α → α} (hf : Keeps w f) (x : α) (s : List α) :
    (shortest w x s).map f = shortest w (f x) (s.map f) := by
  have hmany := (hf.many w.many).mpr rfl
  have hone := (hf.one w.one).mpr rfl
  have hescape := (hf.escape w.escape).mpr rfl
  induction s using shortest.induct w with
  | case1 => rfl
  | case2 s ih => rw [shortest_many, ih, List.map_cons, hmany, shortest_many]
  | case3 s _ ih => rw [shortest_one, List.map_cons, ih, List.map_cons, hone, shortest_one]
  | case4 => rw [shortest_escape_nil, List.map_singleton, List.map_singleton, hmany, hescape, shortest_escape_nil]
  | case5 d s _ _ ih =>
    rw [shortest_escape_cons, List.map_cons, List.map_cons, List.map_cons, hescape, shortest_escape_cons, ih]
  | case6 c s hmany' hone' hescape' ih =>
    have hc := not_special hmany' hone' hescape'
    rw [shortest_plain hc, List.map_cons, List.map_cons, shortest_plain (mt hf.special.mp hc), ih]

end Cimp.Like
