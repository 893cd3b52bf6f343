import Cimp.Lib.JsonRoundTrip
import Cimp.Lib.NumberText

namespace Cimp.ContextSanitizer

open Json Utf16

def maxTotalBytes : ℕ := 64 * 1024

def maxString : ℕ := 1000

def maxArrayItems : ℕ := 25

def maxObjectKeys : ℕ := 40

def maxDepth : ℕ := 5

def dangerousKeys : List Text := ["__proto__", "constructor", "prototype"].map units

section Clamp

variable {ν : Type}

def clampString (s : Text) : Text := if s.length > maxString then s.take maxString ++ units "…" else s

def keptFields (fields : Fields ν) : Fields ν :=
  (fields.filter fun f => !dangerousKeys.contains f.1).take maxObjectKeys

def clampKey (k : Text) : Text := k.take 100

/-- The number is of the levels left, `maxDepth + 1` less the depth; `none` is `undefined`. -/
def clampValue : ℕ → Value ν → Option (Value ν)
  | 0, _ => none
  | _ + 1, .str s => some (.str (clampString s))
  | _ + 1, .num x => some (.num x)
  | _ + 1, .bool b => some (.bool b)
  | _ + 1, .null => some .null
  | levels + 1, .arr items => some (.arr ((items.take maxArrayItems).filterMap (clampValue levels)))
  | levels + 1, .obj fields =>
    some (.obj (assignAll ((keptFields fields).filterMap fun f =>
      (clampValue levels f.2).map fun clamped => (clampKey f.1, clamped))))

end Clamp

/-- `none` is `null`. -/
def sanitizeContext (raw : Text) : Option ecmaScript.Value :=
  if raw = [] then none
  else match parse ecmaScript raw with
    | some (.obj parsed) =>
      match clampValue (maxDepth + 1) (.obj parsed) with
      | some (.obj clamped) =>
        if clamped.length = 0 then none
        else if byteLength (stringify ecmaScript (.obj clamped)) > maxTotalBytes then none
        else some (.obj clamped)
      | _ => none
    | _ => none

section Clamped

variable {ν : Type}

/-- What clamping leaves alone. -/
def Clamped : ℕ → Value ν → Prop
  | 0, _ => False
  | _ + 1, .str s => clampString s = s
  | _ + 1, .num _ | _ + 1, .bool _ | _ + 1, .null => True
  | levels + 1, .arr items => items.length ≤ maxArrayItems ∧ ∀ v ∈ items, Clamped levels v
  | levels + 1, .obj fields => Ordered fields ∧ fields.length ≤ maxObjectKeys ∧
      ∀ f ∈ fields, f.1 ∉ dangerousKeys ∧ clampKey f.1 = f.1 ∧ Clamped levels f.2

variable {levels : ℕ} {v c w : Value ν} {fields : Fields ν}

theorem clampString_idem (s : Text) : clampString (clampString s) = clampString s := by
  by_cases h : s.length > maxString
  · have hlength : (s.take maxString).length = maxString := by
      rw [List.length_take]
      omega
    have hlong : (s.take maxString ++ units "…").length > maxString := by
      rw [List.length_append, hlength]
      decide
    have htake : (s.take maxString ++ units "…").take maxString = s.take maxString := List.take_left' hlength
    rw [clampString, clampString, if_pos h, if_pos hlong, htake]
  · rw [clampString, clampString, if_neg h, if_neg h]

theorem clampKey_idem (k : Text) : clampKey (clampKey k) = clampKey k := by
  rw [clampKey, clampKey, List.take_take, Nat.min_self]

theorem clampKey_safe {k : Text} (h : k ∉ dangerousKeys) : clampKey k ∉ dangerousKeys := by
  by_cases hlong : k.length ≤ 100
  · rwa [clampKey, List.take_of_length_le hlong]
  · intro hmem
    have hshort : ∀ d ∈ dangerousKeys, d.length < 100 := List.all_iff_forall_prop.mp (by decide)
    have hlength := hshort _ hmem
    rw [clampKey, List.length_take] at hlength
    omega

theorem keptFields_safe {f : Text × Value ν} (h : f ∈ keptFields fields) : f.1 ∉ dangerousKeys := by
  have hfilter := (List.mem_filter.mp (List.mem_of_mem_take h)).2
  simpa using hfilter

theorem clamped_clampValue (h : clampValue levels v = some c) : Clamped levels c := by
  induction levels generalizing v c with
  | zero => cases h
  | succ levels ih =>
    cases v with
    | null | bool b | num x =>
      cases h
      trivial
    | str s =>
      cases h
      exact clampString_idem s
    | arr items =>
      cases h
      constructor
      · calc
          _ ≤ (items.take maxArrayItems).length := List.length_filterMap_le _ _
          _ ≤ maxArrayItems := List.length_take_le _ _
      · intro w hw
        obtain ⟨x, -, hx⟩ := List.mem_filterMap.mp hw
        exact ih hx
    | obj fields =>
      cases h
      refine ⟨ordered_assignAll _, ?_, ?_⟩
      · calc
          _ ≤ ((keptFields fields).filterMap _).length := length_assignAll_le _
          _ ≤ (keptFields fields).length := List.length_filterMap_le _ _
          _ ≤ maxObjectKeys := List.length_take_le _ _
      · intro g hg
        obtain ⟨front, rest, hsplit, -⟩ := mem_assignAll.mp hg
        have hmem : g ∈ (keptFields fields).filterMap fun f =>
            (clampValue levels f.2).map fun clamped => (clampKey f.1, clamped) := by
          rw [hsplit]
          simp
        obtain ⟨f, hf, hclamp⟩ := List.mem_filterMap.mp hmem
        obtain ⟨clamped, hclamped, rfl⟩ := Option.map_eq_some_iff.mp hclamp
        exact ⟨clampKey_safe (keptFields_safe hf), clampKey_idem f.1, ih hclamped⟩

theorem filterMap_fixed {α : Type} {f : α → Option α} {l : List α} (h : ∀ x ∈ l, f x = some x) : l.filterMap f = l := by
  rw [List.filterMap_congr h]
  exact List.filterMap_some

theorem clampValue_of_clamped (h : Clamped levels c) : clampValue levels c = some c := by
  induction levels generalizing c with
  | zero => exact absurd h id
  | succ levels ih =>
    cases c with
    | null | bool b | num x => rfl
    | str s => rw [clampValue, h]
    | arr items =>
      rw [clampValue, List.take_of_length_le h.1, filterMap_fixed fun v hv => ih (h.2 v hv)]
    | obj fields =>
      obtain ⟨hordered, hlength, hfields⟩ := h
      have hkept : keptFields fields = fields := by
        rw [keptFields, List.filter_eq_self.mpr fun f hf => by simpa using (hfields f hf).1,
          List.take_of_length_le hlength]
      have hpairs : (fields.filterMap fun f => (clampValue levels f.2).map fun clamped => (clampKey f.1, clamped)) =
          fields := by
        apply filterMap_fixed
        intro f hf
        obtain ⟨-, hkey, hclamped⟩ := hfields f hf
        rw [ih hclamped, Option.map_some, hkey]
      rw [clampValue, hkept, hpairs, assignAll_of_ordered hordered]

theorem clamped_at {d : ℕ} (hat : At d w c) (h : Clamped levels c) : d < levels ∧ Clamped (levels - d) w := by
  induction hat generalizing levels with
  | root v =>
    refine ⟨?_, h⟩
    cases levels with
    | zero => exact absurd h id
    | succ levels => omega
  | item hmem hat ih =>
    cases levels with
    | zero => exact absurd h id
    | succ levels =>
      obtain ⟨hdepth, hclamped⟩ := ih (h.2 _ hmem)
      exact ⟨by omega, by rwa [Nat.add_sub_add_right]⟩
  | field hmem hat ih =>
    cases levels with
    | zero => exact absurd h id
    | succ levels =>
      obtain ⟨hdepth, hclamped⟩ := ih (h.2.2 _ hmem).2.2
      exact ⟨by omega, by rwa [Nat.add_sub_add_right]⟩

theorem wellOrdered_of_clamped (h : Clamped levels c) : WellOrdered c := by
  intro d fields hat
  obtain ⟨hdepth, hclamped⟩ := clamped_at hat h
  obtain ⟨left, hleft⟩ : ∃ left, levels - d = left + 1 := ⟨levels - d - 1, by omega⟩
  rw [hleft] at hclamped
  exact hclamped.1

/-- The limits on one value of the tree, whatever stands in it. -/
def Limited : Value ν → Prop
  | .str s => s.length ≤ 1001
  | .arr items => items.length ≤ 25
  | .obj fields => fields.length ≤ 40 ∧ ∀ k ∈ keys fields, k.length ≤ 100 ∧
      k ≠ units "__proto__" ∧ k ≠ units "constructor" ∧ k ≠ units "prototype"
  | _ => True

theorem limited_of_clamped (h : Clamped levels c) : Limited c := by
  cases levels with
  | zero => exact absurd h id
  | succ levels =>
    cases c with
    | null | bool b | num x => trivial
    | str s =>
      rw [Limited, ← h, clampString]
      split_ifs with hlong
      · rw [List.length_append, List.length_take, maxString]
        have hdots : (units "…").length = 1 := by decide
        omega
      · rw [maxString] at hlong
        omega
    | arr items => exact h.1
    | obj fields =>
      refine ⟨h.2.1, ?_⟩
      intro k hk
      obtain ⟨f, hf, rfl⟩ := List.mem_map.mp hk
      obtain ⟨hsafe, hkey, -⟩ := h.2.2 f hf
      refine ⟨?_, ?_⟩
      · rw [← hkey, clampKey]
        exact List.length_take_le _ _
      · simpa [dangerousKeys] using hsafe

end Clamped

section Sanitized

variable {raw : Text} {levels : ℕ} {c : ecmaScript.Value}

theorem clamped_readBack (h : Clamped levels c) : Clamped levels (readBack ecmaScript c) := by
  induction levels generalizing c with
  | zero => exact absurd h id
  | succ levels ih =>
    cases c with
    | null | bool b =>
      rw [readBack]
      trivial
    | num x =>
      rw [readBack]
      cases ecmaScript.toText x <;> trivial
    | str s => rwa [readBack]
    | arr items =>
      rw [readBack, readBackItems_eq]
      refine ⟨?_, ?_⟩
      · rw [List.length_map]
        exact h.1
      · intro w hw
        obtain ⟨v, hv, rfl⟩ := List.mem_map.mp hw
        exact ih (h.2 v hv)
    | obj fields =>
      rw [readBack]
      obtain ⟨hordered, hlength, hfields⟩ := h
      refine ⟨hordered.readBack, ?_, ?_⟩
      · rwa [readBackFields_eq, List.length_map]
      · rw [readBackFields_eq]
        intro f hf
        obtain ⟨g, hg, rfl⟩ := List.mem_map.mp hf
        obtain ⟨hsafe, hkey, hclamped⟩ := hfields g hg
        exact ⟨hsafe, hkey, ih hclamped⟩

theorem sanitizeContext_cases (h : sanitizeContext raw = some c) :
    ∃ parsed clamped, parse ecmaScript raw = some (.obj parsed) ∧
      clampValue (maxDepth + 1) (.obj parsed) = some c ∧ c = .obj clamped ∧ clamped.length ≠ 0 ∧
        byteLength (stringify ecmaScript c) ≤ maxTotalBytes := by
  rw [sanitizeContext] at h
  split_ifs at h with hempty
  split at h
  · rename_i parsed hparse
    split at h
    · rename_i clamped hclamped
      split_ifs at h with hnil hlong
      cases h
      exact ⟨parsed, clamped, hparse, hclamped, rfl, hnil, Nat.not_lt.mp hlong⟩
    · cases h
  · cases h

/-- A clamped object that is not too long is its own sanitized form, as it is read back. -/
theorem sanitizeContext_stringify {clamped : Fields ecmaScript.Number}
    (h : Clamped (maxDepth + 1) (.obj clamped : ecmaScript.Value)) (hne : clamped.length ≠ 0)
    (hlength : byteLength (stringify ecmaScript (.obj clamped)) ≤ maxTotalBytes) :
    sanitizeContext (stringify ecmaScript (.obj clamped)) = some (readBack ecmaScript (.obj clamped)) := by
  have hraw : stringify ecmaScript (.obj clamped) ≠ [] := by
    rw [stringify]
    exact List.cons_ne_nil _ _
  have hback : readBack ecmaScript (.obj clamped) = .obj (readBackFields ecmaScript clamped) := by rw [readBack]
  have hclamp := clampValue_of_clamped (clamped_readBack h)
  have hprint := stringify_readBack ecmaScript_documented (.obj clamped)
  rw [hback] at hclamp hprint
  rw [sanitizeContext, if_neg hraw, parse_stringify ecmaScript_documented (wellOrdered_of_clamped h), hback]
  simp only [hclamp, hprint]
  rw [if_neg, if_neg (Nat.not_lt.mpr hlength)]
  rwa [readBackFields_eq, List.length_map]

/-- A sanitized context is within the limits, and sanitizing its text again changes no text. -/
theorem sanitizeContext_stable (h : sanitizeContext raw = some c) :
    (∀ d w, At d w c → d ≤ 5 ∧ Limited w) ∧ byteLength (stringify ecmaScript c) ≤ 64 * 1024 ∧
      ∃ again, sanitizeContext (stringify ecmaScript c) = some again ∧
        stringify ecmaScript again = stringify ecmaScript c := by
  obtain ⟨parsed, clamped, -, hclamp, rfl, hne, hlength⟩ := sanitizeContext_cases h
  have hclamped := clamped_clampValue hclamp
  refine ⟨?_, hlength, _, sanitizeContext_stringify hclamped hne hlength, stringify_readBack ecmaScript_documented _⟩
  intro d w hat
  obtain ⟨hdepth, hw⟩ := clamped_at hat hclamped
  rw [maxDepth] at hdepth
  exact ⟨by omega, limited_of_clamped hw⟩

theorem console_kept : ∃ c, sanitizeContext (units "\x7b\"console\":[\"a\",1]\x7d") = some c :=
  Option.isSome_iff_exists.mp (by decide +kernel)

theorem sanitizeContext_stable_console :
    ∃ c, sanitizeContext (units "\x7b\"console\":[\"a\",1]\x7d") = some c ∧
      (∀ d w, At d w c → d ≤ 5 ∧ Limited w) ∧ byteLength (stringify ecmaScript c) ≤ 64 * 1024 ∧
        ∃ again, sanitizeContext (stringify ecmaScript c) = some again ∧
          stringify ecmaScript again = stringify ecmaScript c := by
  obtain ⟨c, hc⟩ := console_kept
  exact ⟨c, hc, sanitizeContext_stable hc⟩

end Sanitized

section Storable

variable {ν : Type} {levels : ℕ} {v c : Value ν} {fields : Fields ν}

def Clean (s : Text) : Prop := 0 ∉ s ∧ WellFormed s

/-- What a `jsonb` column takes. -/
def Storable (c : Value ν) : Prop := ∀ s ∈ texts c, Clean s

/-- What is kept of the strings and keys is clean. Of the keys with one beginning the value of the last is kept. -/
def KeepsClean : ℕ → Value ν → Prop
  | 0, _ => True
  | _ + 1, .str s => Clean (s.take maxString)
  | _ + 1, .num _ | _ + 1, .bool _ | _ + 1, .null => True
  | levels + 1, .arr items => ∀ v ∈ items.take maxArrayItems, KeepsClean levels v
  | levels + 1, .obj fields =>
    levels ≠ 0 → ∀ front f rest, keptFields fields = front ++ f :: rest →
      Clean (clampKey f.1) ∧ ((∀ g ∈ rest, clampKey g.1 ≠ clampKey f.1) → KeepsClean levels f.2)

theorem clean_clampString (s : Text) : Clean (clampString s) ↔ Clean (s.take maxString) := by
  by_cases h : s.length > maxString
  · have hdots : units "…" = [0x2026] := by decide
    have hnot : (0 : UInt16) ∉ s.take maxString ++ [0x2026] ↔ 0 ∉ s.take maxString := by simp
    rw [clampString, if_pos h, hdots, Clean, Clean, hnot, wellFormed_snoc (by decide) (by decide)]
  · rw [clampString, if_neg h, List.take_of_length_le (Nat.not_lt.mp h)]

theorem storable_str (s : Text) : Storable (.str s : Value ν) ↔ Clean s := by
  rw [Storable, texts]
  exact List.forall_mem_singleton

theorem storable_arr (items : List (Value ν)) : Storable (.arr items) ↔ ∀ v ∈ items, Storable v := by
  rw [Storable, texts]
  constructor
  · exact fun h v hv s hs => h s (mem_textsItems.mpr ⟨v, hv, hs⟩)
  · intro h s hs
    obtain ⟨v, hv, hsv⟩ := mem_textsItems.mp hs
    exact h v hv s hsv

theorem storable_obj (fields : Fields ν) :
    Storable (.obj fields) ↔ (∀ k ∈ keys fields, Clean k) ∧ ∀ f ∈ fields, Storable f.2 := by
  rw [Storable, texts]
  constructor
  · intro h
    exact ⟨fun k hk => h k (mem_textsFields.mpr (.inl hk)),
      fun f hf s hs => h s (mem_textsFields.mpr (.inr ⟨f, hf, hs⟩))⟩
  · rintro ⟨hkeys, hvalues⟩ s hs
    obtain hk | ⟨f, hf, hsf⟩ := mem_textsFields.mp hs
    · exact hkeys s hk
    · exact hvalues f hf s hsf

theorem clampValue_some (levels : ℕ) (v : Value ν) : ∃ c, clampValue (levels + 1) v = some c := by
  cases v with
  | null | bool b | num x | str s | arr items | obj fields => exact ⟨_, rfl⟩

theorem keys_assignAll (fields : Fields ν) {k : Text} : k ∈ keys (assignAll fields) ↔ k ∈ keys fields := by
  induction fields using List.reverseRecOn with
  | nil => exact Iff.rfl
  | append_singleton fields f ih =>
    rw [assignAll_snoc, keys_assign, ih, keys_append, List.mem_append]
    simp [keys]

theorem clampFields_eq (levels : ℕ) (fields : Fields ν) : ∃ clamp : Value ν → Value ν,
    (∀ v, clampValue (levels + 1) v = some (clamp v)) ∧
      ((keptFields fields).filterMap fun f =>
        (clampValue (levels + 1) f.2).map fun clamped => (clampKey f.1, clamped)) =
          (keptFields fields).map fun f => (clampKey f.1, clamp f.2) := by
  choose clamp hclamp using fun v : Value ν => clampValue_some levels v
  refine ⟨clamp, hclamp, ?_⟩
  simp only [hclamp, Option.map_some]
  exact congrFun (List.filterMap_eq_map (f := fun f : Text × Value ν => (clampKey f.1, clamp f.2))) _

theorem mem_clampedFields {clamp : Value ν → Value ν} {kept : Fields ν} {k : Text} {c : Value ν} :
    (k, c) ∈ assignAll (kept.map fun f => (clampKey f.1, clamp f.2)) ↔
      ∃ front f rest, kept = front ++ f :: rest ∧ (∀ g ∈ rest, clampKey g.1 ≠ clampKey f.1) ∧ k = clampKey f.1 ∧
        c = clamp f.2 := by
  rw [mem_assignAll]
  constructor
  · rintro ⟨front, rest, hsplit, hlast⟩
    obtain ⟨front', tail, rfl, rfl, htail⟩ := List.map_eq_append_iff.mp hsplit
    obtain ⟨f, rest', rfl, hf, rfl⟩ := List.map_eq_cons_iff.mp htail
    cases hf
    refine ⟨front', f, rest', rfl, ?_, rfl, rfl⟩
    intro g hg heq
    have hmem : (clampKey g.1, clamp g.2) ∈ rest'.map fun f => (clampKey f.1, clamp f.2) :=
      List.mem_map.mpr ⟨g, hg, rfl⟩
    exact hlast (List.mem_map.mpr ⟨_, hmem, heq⟩)
  · rintro ⟨front, f, rest, rfl, hlast, rfl, rfl⟩
    refine ⟨front.map _, rest.map _, by rw [List.map_append, List.map_cons], ?_⟩
    intro hmem
    obtain ⟨x, hx, hkey⟩ := List.mem_map.mp hmem
    obtain ⟨g, hg, rfl⟩ := List.mem_map.mp hx
    exact hlast g hg hkey

theorem storable_clampValue (h : clampValue levels v = some c) : Storable c ↔ KeepsClean levels v := by
  induction levels generalizing v c with
  | zero => cases h
  | succ levels ih =>
    cases v with
    | null | bool b | num x =>
      cases h
      refine iff_of_true ?_ trivial
      rw [Storable, texts]
      exact List.forall_mem_nil _
    | str s =>
      cases h
      rw [storable_str, clean_clampString, KeepsClean]
    | arr items =>
      cases h
      rw [storable_arr, KeepsClean]
      constructor
      · intro hstorable w hw
        cases levels with
        | zero => trivial
        | succ levels =>
          obtain ⟨clamped, hclamped⟩ := clampValue_some levels w
          exact (ih hclamped).mp (hstorable clamped (List.mem_filterMap.mpr ⟨w, hw, hclamped⟩))
      · intro hkeeps w hw
        obtain ⟨x, hx, hclamped⟩ := List.mem_filterMap.mp hw
        exact (ih hclamped).mpr (hkeeps x hx)
    | obj fields =>
      cases h
      rw [storable_obj, KeepsClean]
      cases levels with
      | zero =>
        have hnil : ((keptFields fields).filterMap fun f =>
            (clampValue 0 f.2).map fun clamped => (clampKey f.1, clamped)) = [] := by
          simp [clampValue]
        rw [hnil]
        simp [assignAll, keys]
      | succ levels =>
        obtain ⟨clamp, hclamp, hfields⟩ := clampFields_eq levels fields
        rw [hfields]
        constructor
        · rintro ⟨hkeys, hvalues⟩ - front f rest hsplit
          constructor
          · apply hkeys
            rw [keys_assignAll, keys, List.map_map]
            exact List.mem_map_of_mem (hsplit ▸ List.mem_append_right front List.mem_cons_self)
          · intro hlast
            exact (ih (hclamp f.2)).mp (hvalues (_, clamp f.2)
              (mem_clampedFields.mpr ⟨front, f, rest, hsplit, hlast, rfl, rfl⟩))
        · intro hkeeps
          constructor
          · intro k hk
            rw [keys_assignAll, keys, List.map_map] at hk
            obtain ⟨f, hf, rfl⟩ := List.mem_map.mp hk
            obtain ⟨front, rest, hsplit⟩ := List.append_of_mem hf
            exact (hkeeps (by omega) front f rest hsplit).1
          · rintro ⟨k, c⟩ hmem
            obtain ⟨front, f, rest, hsplit, hlast, rfl, rfl⟩ := mem_clampedFields.mp hmem
            exact (ih (hclamp f.2)).mpr ((hkeeps (by omega) front f rest hsplit).2 hlast)

end Storable

section Sanitized

variable {raw : Text} {c : ecmaScript.Value}

/-- A context can be stored exactly where what it keeps of the text is clean. -/
theorem sanitizeContext_storable_iff (h : sanitizeContext raw = some c) :
    Storable c ↔ ∀ parsed, parse ecmaScript raw = some parsed → KeepsClean (maxDepth + 1) parsed := by
  obtain ⟨parsed, clamped, hparse, hclamp, -, -, -⟩ := sanitizeContext_cases h
  rw [storable_clampValue hclamp]
  constructor
  · intro hkeeps other hother
    rw [hparse, Option.some_inj] at hother
    rwa [← hother]
  · exact fun hkeeps => hkeeps _ hparse

theorem sanitizeContext_storable_iff_console :
    ∃ c, sanitizeContext (units "\x7b\"console\":[\"a\",1]\x7d") = some c ∧
      (Storable c ↔ ∀ parsed, parse ecmaScript (units "\x7b\"console\":[\"a\",1]\x7d") = some parsed →
        KeepsClean (maxDepth + 1) parsed) := by
  obtain ⟨c, hc⟩ := console_kept
  exact ⟨c, hc, sanitizeContext_storable_iff hc⟩

theorem escaped_nul_kept :
    ¬ ∀ raw c, sanitizeContext raw = some c → Storable c := by
  intro h
  have hnul : (sanitizeContext (units "\x7b\"a\":\"\\u0000\"\x7d")).map texts =
      some [units "a", [0]] := by decide +kernel
  obtain ⟨c, hc, htexts⟩ := Option.map_eq_some_iff.mp hnul
  have hclean := h _ c hc [0] (by simp [htexts])
  exact hclean.1 (List.mem_singleton_self 0)

end Sanitized

end Cimp.ContextSanitizer
