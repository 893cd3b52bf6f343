import Mathlib.Data.List.Basic
import Mathlib.Tactic.Common

namespace Cimp.Credentials

universe u v

variable {ι : Type u} {ν : Type v}

structure Holder (ν : Type v) where
  name : ν
  version : ℕ
  live : Bool

structure Credential (ι : Type u) (ν : Type v) where
  holder : ι
  name : ν
  version : ℕ
  revoked : Bool

def Credential.revokeAt [DecidableEq ι] (i : Option ι) (c : Credential ι ν) : Credential ι ν :=
  if i = some c.holder then { c with revoked := true } else c

/-- The invariant under which a credential opens the account it was issued for and no other, and
opens none once it is revoked. A pinned name that was issued stays in use. -/
structure Guarded (pinned : ν → Prop) (find : ι → Option (Holder ν)) (issued : List (Credential ι ν)) :
    Prop where
  distinct : ∀ i j h k, find i = some h → find j = some k → h.name = k.name → i = j
  unclaimed : ∀ c ∈ issued, ∀ i h, find i = some h → h.live = true → h.name = c.name →
    h.version = c.version → i = c.holder
  behind : ∀ c ∈ issued, ∀ h, find c.holder = some h →
    c.version ≤ h.version ∧ (c.revoked = true → c.version < h.version)
  inUse : ∀ c ∈ issued, pinned c.name → ∃ i h, find i = some h ∧ h.name = c.name

namespace Guarded

variable {pinned : ν → Prop} {find find' : ι → Option (Holder ν)} {issued : List (Credential ι ν)}

theorem none_issued (h : ∀ i j h k, find i = some h → find j = some k → h.name = k.name → i = j) :
    Guarded pinned find [] := by
  refine ⟨h, ?_, ?_, ?_⟩ <;> simp

theorem rightful (hg : Guarded pinned find issued) {c : Credential ι ν} {i : ι} {h : Holder ν}
    (hc : c ∈ issued) (hfind : find i = some h) (hlive : h.live = true) (hname : h.name = c.name)
    (hversion : h.version = c.version) : i = c.holder ∧ c.revoked = false := by
  have hi := hg.unclaimed c hc i h hfind hlive hname hversion
  subst hi
  refine ⟨rfl, ?_⟩
  cases hrevoked : c.revoked with
  | false => rfl
  | true =>
    have := (hg.behind c hc h hfind).2 hrevoked
    omega

theorem issue (hg : Guarded pinned find issued) {i : ι} {h : Holder ν} (hfind : find i = some h) :
    Guarded pinned find (issued ++ [⟨i, h.name, h.version, false⟩]) := by
  constructor
  · exact hg.distinct
  · intro c hc j k hk hlive hname hversion
    rcases List.mem_append.mp hc with hold | hnew
    · exact hg.unclaimed c hold j k hk hlive hname hversion
    · cases List.mem_singleton.mp hnew
      exact hg.distinct j i k h hk hfind hname
  · intro c hc k hk
    rcases List.mem_append.mp hc with hold | hnew
    · exact hg.behind c hold k hk
    · cases List.mem_singleton.mp hnew
      rw [hfind] at hk
      cases hk
      exact ⟨Nat.le_refl _, fun h => by cases h⟩
  · intro c hc hpinned
    rcases List.mem_append.mp hc with hold | hnew
    · exact hg.inUse c hold hpinned
    · cases List.mem_singleton.mp hnew
      exact ⟨i, h, hfind, rfl⟩

theorem mono {issued' : List (Credential ι ν)} (hg : Guarded pinned find issued)
    (hsub : ∀ c ∈ issued', c ∈ issued) : Guarded pinned find issued' :=
  ⟨hg.distinct, fun c hc => hg.unclaimed c (hsub c hc), fun c hc => hg.behind c (hsub c hc),
    fun c hc => hg.inUse c (hsub c hc)⟩

variable [DecidableEq ι]

theorem revoke (hg : Guarded pinned find issued) (i : Option ι)
    (h : ∀ c ∈ issued, i = some c.holder → ∀ h, find c.holder = some h → c.version < h.version) :
    Guarded pinned find (issued.map (Credential.revokeAt i)) := by
  have hfields : ∀ c : Credential ι ν, (c.revokeAt i).holder = c.holder ∧ (c.revokeAt i).name = c.name ∧
      (c.revokeAt i).version = c.version := by
    intro c
    unfold Credential.revokeAt
    split <;> exact ⟨rfl, rfl, rfl⟩
  refine ⟨hg.distinct, ?_, ?_, ?_⟩
  · intro c' hc' j k hk hlive hname hversion
    obtain ⟨c, hc, rfl⟩ := List.mem_map.mp hc'
    obtain ⟨hholder, hn, hv⟩ := hfields c
    rw [hholder]
    exact hg.unclaimed c hc j k hk hlive (hname.trans hn) (hversion.trans hv)
  · intro c' hc' k hk
    obtain ⟨c, hc, rfl⟩ := List.mem_map.mp hc'
    obtain ⟨hholder, _, hv⟩ := hfields c
    rw [hholder] at hk
    rw [hv]
    obtain ⟨hle, hlt⟩ := hg.behind c hc k hk
    refine ⟨hle, fun hrevoked => ?_⟩
    by_cases hi : i = some c.holder
    · exact h c hc hi k hk
    · exact hlt (by simpa [Credential.revokeAt, hi] using hrevoked)
  · intro c' hc' hpinned
    obtain ⟨c, hc, rfl⟩ := List.mem_map.mp hc'
    obtain ⟨_, hn, _⟩ := hfields c
    rw [hn] at hpinned ⊢
    exact hg.inUse c hc hpinned

theorem put (hg : Guarded pinned find issued) {i : ι} {w : Holder ν}
    (hput : ∀ j, find' j = if j = i then some w else find j)
    (hdistinct : ∀ j h, find j = some h → j ≠ i → h.name ≠ w.name)
    (hunclaimed : w.live = true → ∀ c ∈ issued, c.holder ≠ i → ¬ (c.name = w.name ∧ c.version = w.version))
    (hbehind : ∀ c ∈ issued, c.holder = i → c.version ≤ w.version ∧ (c.revoked = true → c.version < w.version))
    (hpinned : ∀ c ∈ issued, pinned c.name → ∀ h, find i = some h → h.name = c.name → w.name = h.name) :
    Guarded pinned find' issued := by
  constructor
  · intro j k h l hj hk hname
    rw [hput] at hj hk
    split at hj <;> split at hk
    · simp_all
    · rename_i hji hki
      cases hj
      exact absurd hname.symm (hdistinct k l hk hki)
    · rename_i hji hki
      cases hk
      exact absurd hname (hdistinct j h hj hji)
    · exact hg.distinct j k h l hj hk hname
  · intro c hc j h hj hlive hname hversion
    rw [hput] at hj
    split at hj
    · rename_i hji
      cases hj
      by_contra hne
      exact hunclaimed hlive c hc (fun he => hne (hji.trans he.symm)) ⟨hname.symm, hversion.symm⟩
    · exact hg.unclaimed c hc j h hj hlive hname hversion
  · intro c hc h hh
    rw [hput] at hh
    split at hh
    · rename_i hci
      cases hh
      exact hbehind c hc hci
    · exact hg.behind c hc h hh
  · intro c hc hpin
    obtain ⟨j, h, hj, hname⟩ := hg.inUse c hc hpin
    by_cases hji : j = i
    · subst hji
      exact ⟨j, w, by rw [hput, if_pos rfl], (hpinned c hc hpin h hj hname).trans hname⟩
    · exact ⟨j, h, by rw [hput, if_neg hji, hj], hname⟩

theorem remove (hg : Guarded pinned find issued) {i : ι}
    (hremove : ∀ j, find' j = if j = i then none else find j)
    (hpinned : ∀ c ∈ issued, pinned c.name → ∀ h, find i = some h → h.name ≠ c.name) :
    Guarded pinned find' issued := by
  have hold : ∀ j h, find' j = some h → find j = some h := by
    intro j h hj
    rw [hremove] at hj
    split at hj
    · cases hj
    · exact hj
  refine ⟨?_, ?_, ?_, ?_⟩
  · intro j k h l hj hk hname
    exact hg.distinct j k h l (hold j h hj) (hold k l hk) hname
  · intro c hc j h hj
    exact hg.unclaimed c hc j h (hold j h hj)
  · intro c hc h hh
    exact hg.behind c hc h (hold _ h hh)
  · intro c hc hpin
    obtain ⟨j, h, hj, hname⟩ := hg.inUse c hc hpin
    have hji : j ≠ i := by
      rintro rfl
      exact hpinned c hc hpin h hj hname
    exact ⟨j, h, by rw [hremove, if_neg hji, hj], hname⟩

end Guarded

end Cimp.Credentials
