import Cimp.Lib.JsonText
import Mathlib.Data.Bool.AllAny
import Mathlib.Data.List.TakeWhile

namespace Cimp.Json

open Utf16 Escapes

variable {numbers : NumberFormat} {s rest : Text} {u : UInt16}

theorem lex_hex {k : ℕ} (hk : 1 < k) {n d : ℕ} (hd : d < 16) (s rest : Text) :
    lex numbers (.hex s k n) (hexDigit 0x61 d :: rest) = lex numbers (.hex s (k - 1) (n * 16 + d)) rest := by
  rw [lex_hex_cons, hexValue_hexDigit_lower hd, Option.bind_some, if_neg (by omega)]

theorem lex_lastHex {n d : ℕ} (hd : d < 16) (s rest : Text) :
    lex numbers (.hex s 1 n) (hexDigit 0x61 d :: rest) =
      lex numbers (.string (s ++ [UInt16.ofNat (n * 16 + d)])) rest := by
  rw [lex_hex_cons, hexValue_hexDigit_lower hd, Option.bind_some, if_pos (by omega)]

theorem lex_unicodeEscape (u : UInt16) (s rest : Text) :
    lex numbers (.string s) (unicodeEscape u ++ rest) = lex numbers (.string (s ++ [u])) rest := by
  have hu := u.toNat_lt
  have hvalue : (((0 * 16 + u.toNat / 4096) * 16 + u.toNat / 256 % 16) * 16 + u.toNat / 16 % 16) * 16 +
      u.toNat % 16 = u.toNat := by omega
  simp only [unicodeEscape, List.cons_append, List.nil_append]
  rw [lex_string_cons, if_neg (by decide), if_pos rfl, lex_escape_cons, if_pos rfl, lex_hex (by omega) (by omega),
    lex_hex (by omega) (by omega), lex_hex (by omega) (by omega), lex_lastHex (by omega), hvalue, UInt16.ofNat_toNat]

theorem lex_raw (hquote : u ≠ quote) (hbackslash : u ≠ backslash) (hcontrol : ¬ u < 0x20) (s rest : Text) :
    lex numbers (.string s) (u :: rest) = lex numbers (.string (s ++ [u])) rest := by
  rw [lex_string_cons, if_neg hquote, if_neg hbackslash, if_neg hcontrol]

theorem lex_short {v : UInt16} (h : unescape v = some u) (hv : v ≠ 0x75) (s rest : Text) :
    lex numbers (.string s) (backslash :: v :: rest) = lex numbers (.string (s ++ [u])) rest := by
  rw [lex_string_cons, if_neg (by decide), if_pos rfl, lex_escape_cons, if_neg hv, h, Option.bind_some]

theorem lex_escapeUnit (u : UInt16) (s rest : Text) :
    lex numbers (.string s) (escapeUnit u ++ rest) = lex numbers (.string (s ++ [u])) rest := by
  rw [escapeUnit]
  split_ifs with hb ht hn hf hr hquote hbackslash hcontrol
  · exact lex_short (by rw [hb]; decide) (by decide) s rest
  · exact lex_short (by rw [ht]; decide) (by decide) s rest
  · exact lex_short (by rw [hn]; decide) (by decide) s rest
  · exact lex_short (by rw [hf]; decide) (by decide) s rest
  · exact lex_short (by rw [hr]; decide) (by decide) s rest
  · exact lex_short (by rw [hquote]; decide) (by decide) s rest
  · exact lex_short (by rw [hbackslash]; decide) (by decide) s rest
  · exact lex_unicodeEscape u s rest
  · exact lex_raw hquote hbackslash hcontrol s rest

theorem lex_surrogate (h : 0xD800 ≤ u.toNat) (s rest : Text) :
    lex numbers (.string s) (u :: rest) = lex numbers (.string (s ++ [u])) rest := by
  have hquote : u ≠ quote := fun heq => absurd h (by rw [heq]; decide)
  have hbackslash : u ≠ backslash := fun heq => absurd h (by rw [heq]; decide)
  apply lex_raw hquote hbackslash
  rw [UInt16.lt_iff_toNat_lt]
  have h20 : (0x20 : UInt16).toNat = 32 := rfl
  omega

theorem lex_escapeText (s acc rest : Text) :
    lex numbers (.string acc) (escapeText s ++ rest) = lex numbers (.string (acc ++ s)) rest := by
  fun_induction escapeText s generalizing acc with
  | case1 => rw [List.nil_append, List.append_nil]
  | case2 u hu => rw [lex_unicodeEscape]
  | case3 u hu v us hv ih =>
    rw [List.cons_append, List.cons_append, lex_surrogate hu.1, lex_surrogate (Nat.le_trans (by omega) hv.1), ih]
    simp
  | case4 u hu v us hv ih =>
    rw [List.append_assoc, lex_unicodeEscape, ih]
    simp
  | case5 u us hu hv ih =>
    rw [List.append_assoc, lex_unicodeEscape, ih]
    simp
  | case6 u us hu hv ih =>
    rw [List.append_assoc, lex_escapeUnit, ih]
    simp

theorem lex_quoted (s rest : Text) :
    lex numbers .blank (quoted s ++ rest) = (lex numbers .blank rest).map (.str s :: ·) := by
  rw [quoted, List.cons_append, List.append_assoc, lex_blank_cons, if_neg (by decide), if_pos rfl, lex_escapeText,
    List.nil_append, List.singleton_append, lex_string_cons, if_pos rfl]

def wordUnit (u : UInt16) : Bool := !space u && u != quote && (punctuation u : Option (Token Unit)).isNone

theorem punctuation_isNone (ν : Type) (u : UInt16) :
    (punctuation u : Option (Token Unit)).isNone = (punctuation u : Option (Token ν)).isNone := by
  rw [punctuation, punctuation]
  split_ifs <;> rfl

structure Mark (u : UInt16) (p : ∀ ν, Token ν) : Prop where
  space : space u = false
  quote : u ≠ quote
  punctuation : ∀ ν, punctuation u = some (p ν)

/-- What ends a word: the text's end or a punctuation mark. -/
def Ends (rest : Text) : Prop := rest = [] ∨ ∃ u us p, rest = u :: us ∧ Mark u p

theorem lex_mark {p : ∀ ν, Token ν} (h : Mark u p) (rest : Text) :
    lex numbers .blank (u :: rest) = (lex numbers .blank rest).map (p _ :: ·) := by
  rw [lex_blank_cons, h.space, if_neg (by decide), if_neg h.quote, h.punctuation]

theorem lex_word {w : Text} (hw : ∀ u ∈ w, wordUnit u = true) (hrest : Ends rest) (acc : Text) :
    lex numbers (.word acc) (w ++ rest) =
      (word numbers (acc ++ w)).bind fun t => (lex numbers .blank rest).map (t :: ·) := by
  induction w generalizing acc with
  | nil =>
    rw [List.nil_append, List.append_nil]
    obtain rfl | ⟨u, us, p, rfl, hmark⟩ := hrest
    · rw [lex_word_nil, lex]
      cases word numbers acc <;> rfl
    · rw [lex_mark hmark, lex_word_cons, hmark.space, if_neg (by decide), if_neg hmark.quote, hmark.punctuation]
      simp only [Option.map_map]
      rfl
  | cons u w ih =>
    obtain ⟨hu, hw⟩ := List.forall_mem_cons.mp hw
    rw [wordUnit, Bool.and_eq_true, Bool.and_eq_true, punctuation_isNone numbers.Number] at hu
    obtain ⟨⟨hspace, hquote⟩, hnone⟩ := hu
    rw [Bool.not_eq_true'] at hspace
    rw [List.cons_append, lex_word_cons, hspace, if_neg (by decide), if_neg (by simpa using hquote),
      Option.isNone_iff_eq_none.mp hnone]
    simp only
    rw [ih hw, List.append_assoc, List.singleton_append]

theorem lex_firstWord {w : Text} {t : numbers.Token} (hne : w ≠ []) (hw : ∀ u ∈ w, wordUnit u = true)
    (ht : word numbers w = some t) (hrest : Ends rest) :
    lex numbers .blank (w ++ rest) = (lex numbers .blank rest).map (t :: ·) := by
  obtain ⟨u, w, rfl⟩ := List.exists_cons_of_ne_nil hne
  obtain ⟨hu, hw'⟩ := List.forall_mem_cons.mp hw
  rw [wordUnit, Bool.and_eq_true, Bool.and_eq_true, punctuation_isNone numbers.Number] at hu
  obtain ⟨⟨hspace, hquote⟩, hnone⟩ := hu
  rw [Bool.not_eq_true'] at hspace
  rw [List.cons_append, lex_blank_cons, hspace, if_neg (by decide), if_neg (by simpa using hquote),
    Option.isNone_iff_eq_none.mp hnone]
  simp only
  rw [lex_word hw' hrest, List.singleton_append, ht, Option.bind_some]

def numberUnits : Text := units "0123456789+-.eE"

theorem numberUnit_wordUnit : ∀ u ∈ numberUnits, wordUnit u = true := List.all_iff_forall_prop.mp (by decide)

theorem digit_numberUnit (h : isDigit u = true) : u ∈ numberUnits := by
  have hall : ∀ d ∈ digits, d ∈ numberUnits := List.all_iff_forall_prop.mp (by decide)
  exact hall u (List.contains_iff_mem.mp h)

theorem exponent_units (h : exponent s = true) : ∀ u ∈ s, u ∈ numberUnits := by
  cases s with
  | nil => simp
  | cons e s =>
    rw [exponent, Bool.and_eq_true, Bool.and_eq_true, Bool.or_eq_true, beq_iff_eq, beq_iff_eq] at h
    obtain ⟨⟨he, -⟩, hdigits⟩ := h
    refine List.forall_mem_cons.mpr ⟨?_, ?_⟩
    · obtain rfl | rfl := he <;> decide
    · cases s with
      | nil => simp
      | cons sign s =>
        split_ifs at hdigits with hsign
        · refine List.forall_mem_cons.mpr ⟨?_, fun u hu => digit_numberUnit (List.all_eq_true.mp hdigits u hu)⟩
          obtain heq | heq := hsign
          all_goals
            rw [List.head?_cons, Option.some_inj] at heq
            rw [heq]
            decide
        · exact fun u hu => digit_numberUnit (List.all_eq_true.mp hdigits u hu)

theorem takeWhile_digit (s : Text) : ∀ u ∈ s.takeWhile isDigit, u ∈ numberUnits := fun _ hu =>
  digit_numberUnit (List.mem_takeWhile_imp hu)

theorem mem_of_split (hdrop : ∀ u ∈ s.dropWhile isDigit, u ∈ numberUnits) : ∀ u ∈ s, u ∈ numberUnits := by
  intro u hu
  rw [← List.takeWhile_append_dropWhile (p := isDigit) (l := s)] at hu
  cases List.mem_append.mp hu with
  | inl htake => exact takeWhile_digit s u htake
  | inr hrest => exact hdrop u hrest

theorem fraction_units (h : fraction s = true) : ∀ u ∈ s, u ∈ numberUnits := by
  rw [fraction] at h
  split_ifs at h with hdot
  · obtain ⟨rest, rfl⟩ := List.head?_eq_some_iff.mp hdot
    rw [Bool.and_eq_true] at h
    exact List.forall_mem_cons.mpr ⟨by decide, mem_of_split (exponent_units h.2)⟩
  · exact exponent_units h

theorem numberLiteral_units (h : numberLiteral s = true) : s ≠ [] ∧ ∀ u ∈ s, u ∈ numberUnits := by
  constructor
  · rintro rfl
    exact absurd h (by decide)
  · rw [numberLiteral, Bool.and_eq_true] at h
    have hrest := mem_of_split (fraction_units h.2)
    split_ifs at hrest with hminus
    · obtain ⟨rest, rfl⟩ := List.head?_eq_some_iff.mp hminus
      exact List.forall_mem_cons.mpr ⟨by decide, hrest⟩
    · exact hrest

theorem word_number (h : numberLiteral s = true) : word numbers s = some (.literal (.num (numbers.ofLiteral s))) := by
  have hne : ∀ w, numberLiteral w = false → s ≠ w := by
    rintro w hw rfl
    rw [h] at hw
    cases hw
  rw [word, if_neg (hne _ (by decide)), if_neg (hne _ (by decide)), if_neg (hne _ (by decide)), if_pos h]

/-- `w` is read as `ts` wherever it ends. -/
def Lexes (numbers : NumberFormat) (w : Text) (ts : List numbers.Token) : Prop :=
  ∀ rest, Ends rest → lex numbers .blank (w ++ rest) = (lex numbers .blank rest).map (ts ++ ·)

variable (numbers)

mutual

/-- What reading back leaves of a value: a number that is not finite has become `null`. -/
def readBack : numbers.Value → numbers.Value
  | .null => .null
  | .bool b => .bool b
  | .num x => match numbers.toText x with
    | some s => .num (numbers.ofLiteral s)
    | none => .null
  | .str s => .str s
  | .arr items => .arr (readBackItems items)
  | .obj fields => .obj (readBackFields fields)

def readBackItems : List numbers.Value → List numbers.Value
  | [] => []
  | v :: vs => readBack v :: readBackItems vs

def readBackFields : List (Text × numbers.Value) → List (Text × numbers.Value)
  | [] => []
  | (k, v) :: fields => (k, readBack v) :: readBackFields fields

end

mutual

def tokens : numbers.Value → List numbers.Token
  | .null => [.literal .null]
  | .bool b => [.literal (.bool b)]
  | .num x => [.literal (readBack numbers (.num x))]
  | .str s => [.str s]
  | .arr items => .beginArray :: ([.comma].intercalate (tokensItems items) ++ [.endArray])
  | .obj fields => .beginObject :: ([.comma].intercalate (tokensFields fields) ++ [.endObject])

def tokensItems : List numbers.Value → List (List numbers.Token)
  | [] => []
  | v :: vs => tokens v :: tokensItems vs

def tokensFields : List (Text × numbers.Value) → List (List numbers.Token)
  | [] => []
  | (k, v) :: fields => (.str k :: .colon :: tokens v) :: tokensFields fields

end

variable {numbers}

theorem mark_comma : Mark 0x2C fun _ => .comma := ⟨rfl, by decide, fun _ => rfl⟩

theorem mark_colon : Mark 0x3A fun _ => .colon := ⟨rfl, by decide, fun _ => rfl⟩

theorem mark_beginArray : Mark 0x5B fun _ => .beginArray := ⟨rfl, by decide, fun _ => rfl⟩

theorem mark_endArray : Mark 0x5D fun _ => .endArray := ⟨rfl, by decide, fun _ => rfl⟩

theorem mark_beginObject : Mark 0x7B fun _ => .beginObject := ⟨rfl, by decide, fun _ => rfl⟩

theorem mark_endObject : Mark 0x7D fun _ => .endObject := ⟨rfl, by decide, fun _ => rfl⟩

theorem Mark.ends {p : ∀ ν, Token ν} (h : Mark u p) (rest : Text) : Ends (u :: rest) := .inr ⟨u, rest, p, rfl, h⟩

theorem Lexes.append_mark {w : Text} {ts : List numbers.Token} {p : ∀ ν, Token ν} (h : Lexes numbers w ts)
    (hmark : Mark u p) : Lexes numbers (w ++ [u]) (ts ++ [p _]) := by
  intro rest _
  rw [List.append_assoc, List.singleton_append, h _ (hmark.ends rest), lex_mark hmark, Option.map_map]
  congr 1
  funext l
  simp

theorem Lexes.mark_append {w : Text} {ts : List numbers.Token} {p : ∀ ν, Token ν} (h : Lexes numbers w ts)
    (hmark : Mark u p) : Lexes numbers (u :: w) (p _ :: ts) := by
  intro rest hrest
  rw [List.cons_append, lex_mark hmark, h _ hrest, Option.map_map]
  rfl

theorem Lexes.append_mark_append {w x : Text} {ts more : List numbers.Token} {p : ∀ ν, Token ν}
    (h : Lexes numbers w ts) (hmark : Mark u p) (hmore : Lexes numbers x more) :
    Lexes numbers (w ++ [u] ++ x) (ts ++ [p _] ++ more) := by
  intro rest hrest
  have hnext := hmore.mark_append hmark rest hrest
  rw [List.cons_append] at hnext
  rw [List.append_assoc, List.append_assoc, List.singleton_append, h _ (hmark.ends _), hnext, Option.map_map]
  congr 1
  funext l
  simp

theorem lexes_join {parts : List (Text × List numbers.Token)} (h : ∀ p ∈ parts, Lexes numbers p.1 p.2) :
    Lexes numbers ((units ",").intercalate (parts.map Prod.fst)) ([.comma].intercalate (parts.map Prod.snd)) := by
  induction parts with
  | nil =>
    intro rest _
    simp
  | cons p parts ih =>
    obtain ⟨hp, hparts⟩ := List.forall_mem_cons.mp h
    cases parts with
    | nil =>
      rw [List.map_singleton, List.map_singleton, List.intercalate_singleton, List.intercalate_singleton]
      exact hp
    | cons q parts =>
      rw [List.map_cons, List.map_cons, List.map_cons, List.map_cons, List.intercalate_cons_cons,
        List.intercalate_cons_cons]
      exact hp.append_mark_append mark_comma (ih hparts)

theorem lexes_quoted (s : Text) : Lexes numbers (quoted s) [.str s] := fun rest _ => lex_quoted s rest

theorem lexes_word {w : Text} {t : numbers.Token} (hw : w ≠ [] ∧ ∀ u ∈ w, wordUnit u = true)
    (ht : word numbers w = some t) : Lexes numbers w [t] := fun _ hrest => lex_firstWord hw.1 hw.2 ht hrest

theorem lexes_null : Lexes numbers (units "null") [.literal .null] :=
  lexes_word ⟨by decide, List.all_iff_forall_prop.mp (by decide)⟩ rfl

theorem lexes_number (hnumbers : numbers.Documented) (x : numbers.Number) :
    Lexes numbers (stringify numbers (.num x)) (tokens numbers (.num x)) := by
  rw [stringify, tokens, readBack]
  cases htext : numbers.toText x with
  | none => exact lexes_null
  | some s =>
    have hliteral := hnumbers.literal x s htext
    obtain ⟨hne, hunits⟩ := numberLiteral_units hliteral
    exact lexes_word ⟨hne, fun u hu => numberUnit_wordUnit u (hunits u hu)⟩ (word_number hliteral)

mutual

theorem lexes_stringify (hnumbers : numbers.Documented) :
    ∀ v, Lexes numbers (stringify numbers v) (tokens numbers v)
  | .null => by
    rw [stringify, tokens]
    exact lexes_null
  | .bool true => by
    rw [stringify, tokens]
    exact lexes_word ⟨by decide, List.all_iff_forall_prop.mp (by decide)⟩ rfl
  | .bool false => by
    rw [stringify, tokens]
    exact lexes_word ⟨by decide, List.all_iff_forall_prop.mp (by decide)⟩ rfl
  | .num x => lexes_number hnumbers x
  | .str s => by
    rw [stringify, tokens]
    exact lexes_quoted s
  | .arr items => by
    obtain ⟨parts, htexts, htokens, hparts⟩ := lexes_items hnumbers items
    rw [stringify, tokens, ← htexts, ← htokens]
    exact ((lexes_join hparts).append_mark mark_endArray).mark_append mark_beginArray
  | .obj fields => by
    obtain ⟨parts, htexts, htokens, hparts⟩ := lexes_fields hnumbers fields
    rw [stringify, tokens, ← htexts, ← htokens]
    exact ((lexes_join hparts).append_mark mark_endObject).mark_append mark_beginObject

theorem lexes_items (hnumbers : numbers.Documented) : ∀ items, ∃ parts : List (Text × List numbers.Token),
    parts.map Prod.fst = stringifyItems numbers items ∧ parts.map Prod.snd = tokensItems numbers items ∧
      ∀ p ∈ parts, Lexes numbers p.1 p.2
  | [] => ⟨[], by rw [stringifyItems]; rfl, by rw [tokensItems]; rfl, by simp⟩
  | v :: vs => by
    obtain ⟨parts, htexts, htokens, hparts⟩ := lexes_items hnumbers vs
    refine ⟨(stringify numbers v, tokens numbers v) :: parts, ?_, ?_, ?_⟩
    · rw [List.map_cons, stringifyItems, htexts]
    · rw [List.map_cons, tokensItems, htokens]
    · exact List.forall_mem_cons.mpr ⟨lexes_stringify hnumbers v, hparts⟩

theorem lexes_fields (hnumbers : numbers.Documented) : ∀ fields, ∃ parts : List (Text × List numbers.Token),
    parts.map Prod.fst = stringifyFields numbers fields ∧ parts.map Prod.snd = tokensFields numbers fields ∧
      ∀ p ∈ parts, Lexes numbers p.1 p.2
  | [] => ⟨[], by rw [stringifyFields]; rfl, by rw [tokensFields]; rfl, by simp⟩
  | (k, v) :: fields => by
    obtain ⟨parts, htexts, htokens, hparts⟩ := lexes_fields hnumbers fields
    refine ⟨(quoted k ++ (units ":" ++ stringify numbers v), .str k :: .colon :: tokens numbers v) :: parts, ?_, ?_, ?_⟩
    · rw [List.map_cons, stringifyFields, htexts]
    · rw [List.map_cons, tokensFields, htokens]
    · refine List.forall_mem_cons.mpr ⟨?_, hparts⟩
      have hfield := (lexes_quoted k).append_mark_append mark_colon (lexes_stringify hnumbers v)
      rw [List.append_assoc] at hfield
      exact hfield

end

/-- Every object of the value lists its fields as `Object.keys` does. -/
def WellOrdered {ν : Type} (v : Value ν) : Prop := ∀ d fields, At d (.obj fields) v → Ordered fields

section WellOrdered

variable {ν : Type} {items : List (Value ν)} {fields : Fields ν}

theorem WellOrdered.item (h : WellOrdered (.arr items)) {v : Value ν} (hv : v ∈ items) : WellOrdered v :=
  fun d inner hat => h (d + 1) inner (.item hv hat)

theorem WellOrdered.field (h : WellOrdered (.obj fields)) {k : Text} {v : Value ν} (hv : (k, v) ∈ fields) :
    WellOrdered v := fun d inner hat => h (d + 1) inner (.field hv hat)

end WellOrdered

section Run

variable {ν : Type} {r : Reader ν} {ts : List (Token ν)} {stack : List (Frame ν)}

theorem run_append (r : Reader ν) (ts more : List (Token ν)) :
    run r (ts ++ more) = (run r ts).bind fun r => run r more := by
  induction ts generalizing r with
  | nil => rfl
  | cons t ts ih =>
    rw [List.cons_append, run, run]
    cases step r t with
    | none => rfl
    | some r' => exact ih r'

theorem run_cons {r' : Reader ν} {t : Token ν} (h : step r t = some r') (ts : List (Token ν)) :
    run r (t :: ts) = run r' ts := by
  rw [run, h, Option.bind_some]

end Run

/-- `ts` are read as the value `v`, whatever is on the stack. -/
def Reads {ν : Type} (ts : List (Token ν)) (v : Value ν) : Prop :=
  ∀ stack, run (.value stack) ts = some (.after v stack)

theorem tokens_head (v : numbers.Value) : ∃ t ts, tokens numbers v = t :: ts ∧
    (∀ stack : List (Frame numbers.Number), step (.first stack) t = step (.value (.arr [] :: stack)) t) := by
  cases v with
  | null => exact ⟨_, _, by rw [tokens], fun _ => rfl⟩
  | bool b => exact ⟨_, _, by rw [tokens], fun _ => rfl⟩
  | num x => exact ⟨_, _, by rw [tokens], fun _ => rfl⟩
  | str s => exact ⟨_, _, by rw [tokens], fun _ => rfl⟩
  | arr items => exact ⟨_, _, by rw [tokens], fun _ => rfl⟩
  | obj fields => exact ⟨_, _, by rw [tokens], fun _ => rfl⟩

theorem run_first (v : numbers.Value) (more : List numbers.Token) (stack : List (Frame numbers.Number)) :
    run (.first stack) (tokens numbers v ++ more) = run (.value (.arr [] :: stack)) (tokens numbers v ++ more) := by
  obtain ⟨t, ts, htokens, hstep⟩ := tokens_head v
  rw [htokens, List.cons_append, run, run, hstep]

theorem readBackItems_cons (v : numbers.Value) (vs : List numbers.Value) :
    readBackItems numbers (v :: vs) = readBack numbers v :: readBackItems numbers vs := by
  rw [readBackItems]

theorem readBackFields_cons (k : Text) (v : numbers.Value) (fields : List (Text × numbers.Value)) :
    readBackFields numbers ((k, v) :: fields) = (k, readBack numbers v) :: readBackFields numbers fields := by
  rw [readBackFields]

theorem run_items {items : List numbers.Value}
    (h : ∀ w ∈ items, Reads (tokens numbers w) (readBack numbers w)) (hne : items ≠ [])
    (done : List numbers.Value) (stack : List (Frame numbers.Number)) :
    run (.value (.arr done :: stack)) ([.comma].intercalate (tokensItems numbers items) ++ [.endArray]) =
      some (.after (.arr (done ++ readBackItems numbers items)) stack) := by
  induction items generalizing done with
  | nil => exact absurd rfl hne
  | cons v vs ih =>
    obtain ⟨hv, hvs⟩ := List.forall_mem_cons.mp h
    cases vs with
    | nil =>
      rw [tokensItems, tokensItems, List.intercalate_singleton, run_append, hv, Option.bind_some, run_cons rfl, run,
        readBackItems, readBackItems]
    | cons w vs =>
      have hrest := ih hvs (by simp) (done ++ [readBack numbers v])
      rw [tokensItems] at hrest
      rw [tokensItems, tokensItems, List.intercalate_cons_cons, List.append_assoc, List.append_assoc, run_append, hv,
        Option.bind_some, List.singleton_append, run_cons rfl, hrest, readBackItems_cons v, List.append_assoc,
        List.singleton_append]

theorem run_fields {fields : List (Text × numbers.Value)}
    (h : ∀ f ∈ fields, Reads (tokens numbers f.2) (readBack numbers f.2)) (hne : fields ≠ [])
    (done : Fields numbers.Number) (stack : List (Frame numbers.Number)) :
    run (.key done stack) ([.comma].intercalate (tokensFields numbers fields) ++ [.endObject]) =
      some (.after (.obj ((readBackFields numbers fields).foldl assign done)) stack) := by
  induction fields generalizing done with
  | nil => exact absurd rfl hne
  | cons f fields ih =>
    obtain ⟨k, v⟩ := f
    obtain ⟨hv, hfields⟩ := List.forall_mem_cons.mp h
    cases fields with
    | nil =>
      rw [tokensFields, tokensFields, List.intercalate_singleton, List.cons_append, List.cons_append, run_cons rfl,
        run_cons rfl, run_append, hv, Option.bind_some, run_cons rfl, run, readBackFields, readBackFields,
        List.foldl_cons, List.foldl_nil]
    | cons g fields =>
      have hrest := ih hfields (by simp) (assign done (k, readBack numbers v))
      obtain ⟨l, w⟩ := g
      rw [tokensFields] at hrest
      rw [tokensFields, tokensFields, List.intercalate_cons_cons, List.append_assoc, List.append_assoc,
        List.cons_append, List.cons_append, run_cons rfl, run_cons rfl, run_append, hv, Option.bind_some,
        List.singleton_append, run_cons rfl, hrest, readBackFields_cons k, List.foldl_cons]

theorem readBackItems_eq (items : List numbers.Value) :
    readBackItems numbers items = items.map (readBack numbers) := by
  induction items with
  | nil => rw [readBackItems, List.map_nil]
  | cons v vs ih => rw [readBackItems_cons, List.map_cons, ih]

theorem readBackFields_eq (fields : List (Text × numbers.Value)) :
    readBackFields numbers fields = fields.map fun f => (f.1, readBack numbers f.2) := by
  induction fields with
  | nil => rw [readBackFields, List.map_nil]
  | cons f fields ih => rw [readBackFields_cons, List.map_cons, ih]

theorem keys_readBack (fields : List (Text × numbers.Value)) : keys (readBackFields numbers fields) = keys fields := by
  rw [readBackFields_eq, keys, keys, List.map_map]
  rfl

theorem Ordered.readBack {fields : List (Text × numbers.Value)} (h : Ordered fields) :
    Ordered (readBackFields numbers fields) := by
  have hkeys : keys (readBackFields numbers fields) = keys fields := keys_readBack fields
  constructor
  · rw [hkeys]
    exact h.nodup
  · rw [hkeys]
    exact h.sorted

theorem reads_arr {items : List numbers.Value} (h : ∀ w ∈ items, Reads (tokens numbers w) (readBack numbers w)) :
    Reads (tokens numbers (.arr items)) (readBack numbers (.arr items)) := by
  intro stack
  rw [tokens, run_cons rfl, readBack]
  cases items with
  | nil => rfl
  | cons v vs =>
    have hitems := run_items h (by simp) [] stack
    rw [List.nil_append] at hitems
    rw [← hitems, tokensItems]
    cases vs with
    | nil =>
      rw [tokensItems, List.intercalate_singleton]
      exact run_first v _ stack
    | cons w vs =>
      rw [tokensItems, List.intercalate_cons_cons, List.append_assoc, List.append_assoc]
      exact run_first v _ stack

theorem reads_obj {fields : List (Text × numbers.Value)} (hordered : Ordered fields)
    (h : ∀ f ∈ fields, Reads (tokens numbers f.2) (readBack numbers f.2)) :
    Reads (tokens numbers (.obj fields)) (readBack numbers (.obj fields)) := by
  intro stack
  rw [tokens, run_cons rfl, readBack]
  cases fields with
  | nil => rfl
  | cons f fields =>
    obtain ⟨k, v⟩ := f
    have hfields := run_fields h (by simp) [] stack
    rw [← assignAll, assignAll_of_ordered hordered.readBack] at hfields
    rw [← hfields, tokensFields]
    cases fields with
    | nil => rfl
    | cons g fields => rfl

mutual

theorem reads_tokens : ∀ v : numbers.Value, WellOrdered v → Reads (tokens numbers v) (readBack numbers v)
  | .null, _ => fun stack => by rw [tokens, run_cons rfl, run, readBack]
  | .bool b, _ => fun stack => by rw [tokens, run_cons rfl, run, readBack]
  | .num x, _ => fun stack => by rw [tokens, run_cons rfl, run]
  | .str s, _ => fun stack => by rw [tokens, run_cons rfl, run, readBack]
  | .arr items, h => reads_arr (reads_items items fun _ hv => h.item hv)
  | .obj fields, h => reads_obj (h 0 fields (.root _)) (reads_fields fields fun f hf => h.field (k := f.1) hf)

theorem reads_items : ∀ items : List numbers.Value, (∀ v ∈ items, WellOrdered v) →
    ∀ v ∈ items, Reads (tokens numbers v) (readBack numbers v)
  | [], _ => by simp
  | v :: vs, h => List.forall_mem_cons.mpr
      ⟨reads_tokens v (h v List.mem_cons_self), reads_items vs fun w hw => h w (List.mem_cons_of_mem v hw)⟩

theorem reads_fields : ∀ fields : List (Text × numbers.Value), (∀ f ∈ fields, WellOrdered f.2) →
    ∀ f ∈ fields, Reads (tokens numbers f.2) (readBack numbers f.2)
  | [], _ => by simp
  | (k, v) :: fields, h => List.forall_mem_cons.mpr
      ⟨reads_tokens v (h (k, v) List.mem_cons_self), reads_fields fields fun f hf => h f (List.mem_cons_of_mem (k, v) hf)⟩

end

mutual

theorem stringify_readBack (hnumbers : numbers.Documented) :
    ∀ v, stringify numbers (readBack numbers v) = stringify numbers v
  | .null => by rw [readBack]
  | .bool b => by rw [readBack]
  | .num x => by
    rw [readBack]
    cases htext : numbers.toText x with
    | none => rw [stringify, stringify, htext, Option.getD_none]
    | some s => rw [stringify, stringify, htext, hnumbers.reads x s htext]
  | .str s => by rw [readBack]
  | .arr items => by rw [readBack, stringify, stringify, stringifyItems_readBack hnumbers items]
  | .obj fields => by rw [readBack, stringify, stringify, stringifyFields_readBack hnumbers fields]

theorem stringifyItems_readBack (hnumbers : numbers.Documented) :
    ∀ items, stringifyItems numbers (readBackItems numbers items) = stringifyItems numbers items
  | [] => by rw [readBackItems]
  | v :: vs => by
    rw [readBackItems_cons, stringifyItems, stringifyItems, stringify_readBack hnumbers v,
      stringifyItems_readBack hnumbers vs]

theorem stringifyFields_readBack (hnumbers : numbers.Documented) :
    ∀ fields, stringifyFields numbers (readBackFields numbers fields) = stringifyFields numbers fields
  | [] => by rw [readBackFields]
  | (k, v) :: fields => by
    rw [readBackFields_cons, stringifyFields, stringifyFields, stringify_readBack hnumbers v,
      stringifyFields_readBack hnumbers fields]

end

/-- A value is read back from its text, but for the numbers that have none. -/
theorem parse_stringify (hnumbers : numbers.Documented) {v : numbers.Value} (h : WellOrdered v) :
    parse numbers (stringify numbers v) = some (readBack numbers v) := by
  have hlex := lexes_stringify hnumbers v [] (.inl rfl)
  rw [List.append_nil, lex, Option.map_some, List.append_nil] at hlex
  rw [parse, hlex]
  simp only [Option.bind_eq_bind, Option.bind_some]
  rw [reads_tokens v h []]
  rfl

theorem wellFormed_unit {u : UInt16} (hhigh : ¬ High u) (hlow : ¬ Low u) : WellFormed [u] :=
  ⟨[single u], by rw [encode, List.flatMap_singleton, encodeChar_single hhigh hlow]⟩

theorem wellFormed_plain {s : Text} (h : ∀ u ∈ s, u.toNat < 0xD800) : WellFormed s := by
  induction s with
  | nil => exact ⟨[], rfl⟩
  | cons u s ih =>
    obtain ⟨hu, hs⟩ := List.forall_mem_cons.mp h
    have hhigh : ¬ High u := by
      rw [High]
      omega
    have hlow : ¬ Low u := by
      rw [Low]
      omega
    exact wellFormed_append (wellFormed_unit hhigh hlow) (ih hs)

theorem hexDigit_plain {n : ℕ} (h : n < 16) : (hexDigit 0x61 n).toNat < 0xD800 := by
  revert n
  decide

theorem wellFormed_unicodeEscape (u : UInt16) : WellFormed (unicodeEscape u) := by
  have hu := u.toNat_lt
  apply wellFormed_plain
  simp only [unicodeEscape, List.forall_mem_cons]
  exact ⟨by decide, by decide, hexDigit_plain (by omega), hexDigit_plain (by omega), hexDigit_plain (by omega),
    hexDigit_plain (by omega), List.forall_mem_nil _⟩

theorem wellFormed_escapeUnit {u : UInt16} (hhigh : ¬ High u) (hlow : ¬ Low u) : WellFormed (escapeUnit u) := by
  rw [escapeUnit]
  split_ifs
  iterate 7 exact wellFormed_plain (List.all_iff_forall_prop.mp (by decide))
  · exact wellFormed_unicodeEscape u
  · exact wellFormed_unit hhigh hlow

theorem wellFormed_escapeText (s : Text) : WellFormed (escapeText s) := by
  fun_induction escapeText s with
  | case1 => exact ⟨[], rfl⟩
  | case2 u hu => exact wellFormed_unicodeEscape u
  | case3 u hu v us hv ih =>
    exact wellFormed_append ⟨[pair u v], by rw [encode, List.flatMap_singleton, encodeChar_pair hu hv]⟩ ih
  | case4 u hu v us hv ih | case5 u us hu hv ih => exact wellFormed_append (wellFormed_unicodeEscape u) ih
  | case6 u us hu hv ih => exact wellFormed_append (wellFormed_escapeUnit hu hv) ih

theorem wellFormed_units (s : String) : WellFormed (units s) := ⟨s.toList, rfl⟩

theorem wellFormed_quoted (s : Text) : WellFormed (quoted s) := by
  have hquote : WellFormed [quote] := wellFormed_plain (List.all_iff_forall_prop.mp (by decide))
  exact wellFormed_append hquote (wellFormed_append (wellFormed_escapeText s) hquote)

theorem wellFormed_intercalate {sep : Text} (hsep : WellFormed sep) {parts : List Text}
    (h : ∀ p ∈ parts, WellFormed p) : WellFormed (sep.intercalate parts) := by
  induction parts with
  | nil => exact ⟨[], rfl⟩
  | cons p parts ih =>
    obtain ⟨hp, hparts⟩ := List.forall_mem_cons.mp h
    cases parts with
    | nil => rwa [List.intercalate_singleton]
    | cons q parts =>
      rw [List.intercalate_cons_cons]
      exact wellFormed_append (wellFormed_append hp hsep) (ih hparts)

mutual

theorem wellFormed_stringify (hnumbers : numbers.Documented) : ∀ v, WellFormed (stringify numbers v)
  | .null | .bool true | .bool false => by
    rw [stringify]
    exact wellFormed_units _
  | .num x => by
    rw [stringify]
    cases htext : numbers.toText x with
    | none => exact wellFormed_units _
    | some s =>
      have hplain : ∀ u ∈ numberUnits, u.toNat < 0xD800 := List.all_iff_forall_prop.mp (by decide)
      exact wellFormed_plain fun u hu => hplain u ((numberLiteral_units (hnumbers.literal x s htext)).2 u hu)
  | .str s => by
    rw [stringify]
    exact wellFormed_quoted s
  | .arr items => by
    rw [stringify]
    exact wellFormed_append (wellFormed_units _)
      (wellFormed_append (wellFormed_intercalate (wellFormed_units _) (wellFormed_items hnumbers items))
        (wellFormed_units _))
  | .obj fields => by
    rw [stringify]
    exact wellFormed_append (wellFormed_units _)
      (wellFormed_append (wellFormed_intercalate (wellFormed_units _) (wellFormed_fields hnumbers fields))
        (wellFormed_units _))

theorem wellFormed_items (hnumbers : numbers.Documented) :
    ∀ items, ∀ p ∈ stringifyItems numbers items, WellFormed p
  | [] => by
    rw [stringifyItems]
    exact List.forall_mem_nil _
  | v :: vs => by
    rw [stringifyItems]
    exact List.forall_mem_cons.mpr ⟨wellFormed_stringify hnumbers v, wellFormed_items hnumbers vs⟩

theorem wellFormed_fields (hnumbers : numbers.Documented) :
    ∀ fields, ∀ p ∈ stringifyFields numbers fields, WellFormed p
  | [] => by
    rw [stringifyFields]
    exact List.forall_mem_nil _
  | (k, v) :: fields => by
    rw [stringifyFields]
    refine List.forall_mem_cons.mpr ⟨?_, wellFormed_fields hnumbers fields⟩
    exact wellFormed_append (wellFormed_quoted k)
      (wellFormed_append (wellFormed_units _) (wellFormed_stringify hnumbers v))

end

end Cimp.Json
