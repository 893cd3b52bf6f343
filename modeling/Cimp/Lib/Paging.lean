import Cimp.Lib.Window

namespace Cimp.Paging

open Window

universe u v

variable {α : Type u} {r : α → α → Prop} {rows list : List α} {size n k : ℕ} {a b : α}

/-- `skip` and `take`; the first page has number zero. -/
def page (size k : ℕ) (list : List α) : List α := (list.drop (k * size)).take size

/-- The first `n` pages, each the answer to a query of its own. -/
def pages (size n : ℕ) (q : ℕ → Ordering r rows) : List α := (List.range n).flatMap fun k => page size k (q k).list

def pageCount (total size : ℕ) : ℕ := (total + size - 1) / size

structure Key (α : Type u) where
  le : α → α → Prop
  [decidableLe : DecidableRel le]
  [total : Std.Total le]
  [trans : IsTrans α le]

namespace Key

instance (key : Key α) : DecidableRel key.le := key.decidableLe

instance (key : Key α) : Std.Total key.le := key.total

instance (key : Key α) : IsTrans α key.le := key.trans

variable {β : Type v} [LinearOrder β]

def asc (f : α → β) : Key α where
  le a b := f a ≤ f b
  decidableLe a b := inferInstanceAs (Decidable (f a ≤ f b))
  total := ⟨fun a b => le_total (f a) (f b)⟩
  trans := ⟨fun _ _ _ => le_trans⟩

def desc (f : α → β) : Key α where
  le a b := f b ≤ f a
  decidableLe a b := inferInstanceAs (Decidable (f b ≤ f a))
  total := ⟨fun a b => le_total (f b) (f a)⟩
  trans := ⟨fun _ _ _ hab hbc => le_trans hbc hab⟩

end Key

def OrderBy : List (Key α) → α → α → Prop
  | [], _, _ => True
  | key :: keys, a, b => key.le a b ∧ (key.le b a → OrderBy keys a b)

namespace OrderBy

variable {key : Key α} {keys : List (Key α)} {a b : α}

instance decidable : (keys : List (Key α)) → DecidableRel (OrderBy keys)
  | [], _, _ => .isTrue trivial
  | key :: keys, a, b =>
    have := decidable keys a b
    inferInstanceAs (Decidable (key.le a b ∧ (key.le b a → OrderBy keys a b)))

theorem total_of (keys : List (Key α)) (a b : α) : OrderBy keys a b ∨ OrderBy keys b a := by
  induction keys with
  | nil => exact Or.inl trivial
  | cons key keys ih =>
    by_cases hab : key.le a b
    · by_cases hba : key.le b a
      · rcases ih with h | h
        · exact Or.inl ⟨hab, fun _ => h⟩
        · exact Or.inr ⟨hba, fun _ => h⟩
      · exact Or.inl ⟨hab, fun h => absurd h hba⟩
    · have hba : key.le b a := (key.total.total a b).resolve_left hab
      exact Or.inr ⟨hba, fun h => absurd h hab⟩

theorem trans_of (keys : List (Key α)) {a b c : α} (hab : OrderBy keys a b) (hbc : OrderBy keys b c) :
    OrderBy keys a c := by
  induction keys with
  | nil => trivial
  | cons key keys ih =>
    obtain ⟨hab, hab'⟩ := hab
    obtain ⟨hbc, hbc'⟩ := hbc
    refine ⟨key.trans.trans a b c hab hbc, fun hca => ?_⟩
    exact ih (hab' (key.trans.trans b c a hbc hca)) (hbc' (key.trans.trans c a b hca hab))

instance (keys : List (Key α)) : Std.Total (OrderBy keys) := ⟨total_of keys⟩

instance (keys : List (Key α)) : IsTrans α (OrderBy keys) := ⟨fun _ _ _ => trans_of keys⟩

theorem le_of_mem (hkey : key ∈ keys) (hab : OrderBy keys a b) (hba : OrderBy keys b a) : key.le a b := by
  induction keys with
  | nil => exact absurd hkey List.not_mem_nil
  | cons first keys ih =>
    rcases List.mem_cons.mp hkey with rfl | hkey
    · exact hab.1
    · exact ih hkey (hab.2 hba.1) (hba.2 hab.1)

end OrderBy

theorem le_pageCount_mul (total : ℕ) (hsize : 1 ≤ size) : total ≤ pageCount total size * size := by
  have hdiv := Nat.div_add_mod (total + size - 1) size
  have hmod := Nat.mod_lt (total + size - 1) hsize
  rw [pageCount, Nat.mul_comm]
  omega

theorem take_page (size k : ℕ) (list : List α) :
    list.take (k * size) ++ page size k list = list.take ((k + 1) * size) := by
  rw [page, Nat.add_mul, Nat.one_mul, List.take_add]

theorem pages_succ (size n : ℕ) (q : ℕ → Ordering r rows) :
    pages size (n + 1) q = pages size n q ++ page size n (q n).list := by
  simp [pages, List.range_succ]

section Unique

theorem pages_of_eq {q : ℕ → Ordering r rows} (h : ∀ k, (q k).list = list) : pages size n q = list.take (n * size) := by
  induction n with
  | zero => simp [pages]
  | succ n ih => rw [pages_succ, ih, h n, take_page]

theorem pages_of_antisymm (hanti : ∀ a ∈ rows, ∀ b ∈ rows, r a b → r b a → a = b) (hsize : 1 ≤ size)
    (q : ℕ → Ordering r rows) (ordered : Ordering r rows) :
    pages size (pageCount rows.length size) q = ordered.list := by
  rw [pages_of_eq fun k => Ordering.eq_of_antisymm hanti (q k) ordered]
  apply List.take_of_length_le
  rw [ordered.perm.length_eq]
  exact le_pageCount_mul _ hsize

end Unique

end Cimp.Paging
