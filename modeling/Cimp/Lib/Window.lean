import Mathlib.Data.List.Sort

namespace Cimp.Window

universe u

variable {α : Type u} {r : α → α → Prop} {rows : List α} {a b : α} {n : ℕ}

/-- What `ORDER BY` may return: every row once, and rows the order ties in any order. -/
structure Ordering (r : α → α → Prop) (rows : List α) where
  list : List α
  perm : list.Perm rows
  sorted : list.Pairwise r

def Ordering.window (q : Ordering r rows) (n : ℕ) : List α := q.list.take n

theorem Ordering.mem_list (q : Ordering r rows) : a ∈ q.list ↔ a ∈ rows := q.perm.mem_iff

theorem Ordering.mem_rows (q : Ordering r rows) (h : a ∈ q.window n) : a ∈ rows :=
  q.mem_list.mp (List.mem_of_mem_take h)

theorem Ordering.eq_of_antisymm (hanti : ∀ a ∈ rows, ∀ b ∈ rows, r a b → r b a → a = b) (q q' : Ordering r rows) :
    q.list = q'.list :=
  List.Perm.eq_of_pairwise (fun a b ha hb => hanti a (q.mem_list.mp ha) b (q'.mem_list.mp hb)) q.sorted q'.sorted
    (q.perm.trans q'.perm.symm)

def rank (r : α → α → Prop) [DecidableRel r] (rows : List α) (a : α) : ℕ := rows.countP fun b => r b a

section Ties

variable [DecidableRel r] [Std.Total r]

theorem Ordering.mem_window_of_rank (q : Ordering r rows) (ha : a ∈ rows) (h : rank r rows a ≤ n) :
    a ∈ q.window n := by
  obtain ⟨before, after, hlist⟩ := List.append_of_mem (q.mem_list.mpr ha)
  have hsorted := hlist ▸ q.sorted
  have hbefore : before.countP (fun b => r b a) = before.length := by
    apply List.countP_eq_length.mpr
    intro b hb
    exact decide_eq_true ((List.pairwise_append.mp hsorted).2.2 b hb a List.mem_cons_self)
  have hself : r a a := (Std.Total.total a a).elim id id
  have hrank : before.length < rank r rows a := by
    rw [rank, ← q.perm.countP_eq, hlist, List.countP_append, hbefore, List.countP_cons_of_pos (by simpa using hself)]
    omega
  have hlt : before.length < n := hrank.trans_le h
  rw [Ordering.window, hlist, List.take_append, List.take_of_length_le hlt.le]
  apply List.mem_append_right
  obtain ⟨m, hm⟩ : ∃ m, n - before.length = m + 1 := ⟨n - before.length - 1, by omega⟩
  rw [hm, List.take_succ_cons]
  exact List.mem_cons_self

/-- `r` with `a` moved behind every row it ties with. -/
def Behind (r : α → α → Prop) (a x y : α) : Prop := r x y ∧ (x = a → r y x → y = a)

instance [DecidableEq α] (a : α) : DecidableRel (Behind r a) := fun x y =>
  inferInstanceAs (Decidable (r x y ∧ (x = a → r y x → y = a)))

instance (a : α) : Std.Total (Behind r a) where
  total x y := by
    by_cases hxy : r x y
    · by_cases hlast : x = a → r y x → y = a
      · exact Or.inl ⟨hxy, hlast⟩
      · obtain ⟨_, hrest⟩ := Classical.not_imp.mp hlast
        obtain ⟨hyx, hne⟩ := Classical.not_imp.mp hrest
        exact Or.inr ⟨hyx, fun hy => absurd hy hne⟩
    · have hyx : r y x := (Std.Total.total x y).resolve_left hxy
      exact Or.inr ⟨hyx, fun _ h => absurd h hxy⟩

variable [IsTrans α r]

instance (a : α) : IsTrans α (Behind r a) where
  trans x y z := by
    rintro ⟨hxy, hx⟩ ⟨hyz, hy⟩
    refine ⟨trans_of r hxy hyz, ?_⟩
    intro hxa hzx
    have hya : y = a := hx hxa (trans_of r hyz hzx)
    exact hy hya (trans_of r hzx hxy)

def Ordering.sort (r : α → α → Prop) [DecidableRel r] [Std.Total r] [IsTrans α r] (rows : List α) :
    Ordering r rows where
  list := rows.insertionSort r
  perm := List.perm_insertionSort r rows
  sorted := List.pairwise_insertionSort r rows

def Ordering.behind [DecidableEq α] (r : α → α → Prop) [DecidableRel r] [Std.Total r] [IsTrans α r]
    (rows : List α) (a : α) : Ordering r rows where
  list := rows.insertionSort (Behind r a)
  perm := List.perm_insertionSort (Behind r a) rows
  sorted := (List.pairwise_insertionSort (Behind r a) rows).imp And.left

theorem Ordering.not_mem_behind [DecidableEq α] (hrows : rows.Nodup) (h : n < rank r rows a) :
    a ∉ (Ordering.behind r rows a).window n := by
  intro ha
  let list := rows.insertionSort (Behind r a)
  have hperm : list.Perm rows := List.perm_insertionSort (Behind r a) rows
  have hsplit : list.take n ++ list.drop n = list := List.take_append_drop n list
  have hsorted : (list.take n ++ list.drop n).Pairwise (Behind r a) := by
    rw [hsplit]
    exact List.pairwise_insertionSort (Behind r a) rows
  have hnodup : (list.take n ++ list.drop n).Nodup := by
    rw [hsplit]
    exact hperm.nodup_iff.mpr hrows
  -- `a` comes last among its ties, so with `a` in the window no row after the window may precede it
  have hafter : (list.drop n).countP (fun b => r b a) = 0 := by
    apply List.countP_eq_zero.mpr
    intro b hb
    have hne : b ≠ a := Ne.symm ((List.nodup_append.mp hnodup).2.2 a ha b hb)
    have hlast := ((List.pairwise_append.mp hsorted).2.2 a ha b hb).2 rfl
    simpa using fun hba => hne (hlast hba)
  have hrank : rank r rows a = (list.take n).countP fun b => r b a := by
    rw [rank, ← hperm.countP_eq]
    conv_lhs => rw [← hsplit]
    rw [List.countP_append, hafter, Nat.add_zero]
  have hcount : (list.take n).countP (fun b => r b a) ≤ (list.take n).length := List.countP_le_length
  have hlength := List.length_take_le n list
  omega

theorem mem_window_iff [DecidableEq α] (hrows : rows.Nodup) (ha : a ∈ rows) :
    (∀ q : Ordering r rows, a ∈ q.window n) ↔ rank r rows a ≤ n := by
  constructor
  · intro h
    by_contra hlt
    exact Ordering.not_mem_behind hrows (Nat.lt_of_not_le hlt) (h (Ordering.behind r rows a))
  · intro h q
    exact q.mem_window_of_rank ha h

end Ties

end Cimp.Window
