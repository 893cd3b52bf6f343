import Mathlib.Data.List.TakeWhile
import Cimp.Common
import Cimp.Lib.Scanner

namespace Cimp.Jql

open Scanner

inductive Comparison
  | eq | ne | contains | ge | le
deriving DecidableEq, Repr

inductive Token
  | word (value : String)
  | string (value : String)
  | op (c : Comparison)
  | lparen
  | rparen
  | comma
deriving DecidableEq, Repr

def Comparison.text : Comparison → String
  | eq => "="
  | ne => "!="
  | contains => "~"
  | ge => ">="
  | le => "<="

def Token.value : Token → String
  | word v => v
  | string v => v
  | op c => c.text
  | lparen => "("
  | rparen => ")"
  | comma => ","

/-- The text of a token that may stand for a value. -/
def Token.literal : Token → Option String
  | word v => some v
  | string v => some v
  | _ => none

def isWordChar (c : Char) : Bool := !isSpace c && c ≠ '(' && c ≠ ')' && c ≠ ',' && c ≠ '"'

def takeString : List Char → Option (Token × List Char)
  | '"' :: s =>
    match s.dropWhile (· ≠ '"') with
    | [] => none
    | _ :: rest => some (.string (String.ofList (s.takeWhile (· ≠ '"'))), rest)
  | _ => none

def takeOp : List Char → Option (Token × List Char)
  | '!' :: '=' :: rest => some (.op .ne, rest)
  | '>' :: '=' :: rest => some (.op .ge, rest)
  | '<' :: '=' :: rest => some (.op .le, rest)
  | '=' :: rest => some (.op .eq, rest)
  | '~' :: rest => some (.op .contains, rest)
  | _ => none

def takePunctuation : List Char → Option (Token × List Char)
  | '(' :: rest => some (.lparen, rest)
  | ')' :: rest => some (.rparen, rest)
  | ',' :: rest => some (.comma, rest)
  | _ => none

def takeWord (s : List Char) : Option (Token × List Char) :=
  match s.takeWhile isWordChar with
  | [] => none
  | body => some (.word (String.ofList body), s.dropWhile isWordChar)

/-- The alternatives of the regular expression, the first that matches. -/
def takeToken (s : List Char) : Option (Token × List Char) :=
  takeString s <|> takeOp s <|> takePunctuation s <|> takeWord s

variable {s rest : List Char} {t : Token}

theorem takeToken_cases (h : takeToken s = some (t, rest)) :
    takeString s = some (t, rest) ∨ takeOp s = some (t, rest) ∨ takePunctuation s = some (t, rest) ∨
      takeString s = none ∧ takeOp s = none ∧ takePunctuation s = none ∧ takeWord s = some (t, rest) := by
  simp only [takeToken, Option.orElse_eq_orElse, Option.orElse_eq_or, Option.or_eq_some_iff] at h
  rcases h with h | ⟨hstring, h | ⟨hop, h | ⟨hpunctuation, h⟩⟩⟩
  · exact Or.inl h
  · exact Or.inr (Or.inl h)
  · exact Or.inr (Or.inr (Or.inl h))
  · exact Or.inr (Or.inr (Or.inr ⟨hstring, hop, hpunctuation, h⟩))

theorem takeString_eq_none {c : Char} : takeString (c :: s) = none ↔ c ≠ '"' ∨ '"' ∉ s := by
  by_cases hc : c = '"'
  · subst hc
    have hdrop : s.dropWhile (· ≠ '"') = [] ↔ '"' ∉ s := by
      rw [List.dropWhile_eq_nil_iff]
      constructor
      · intro h hmem
        exact absurd (h _ hmem) (by decide)
      · intro h c hc
        exact decide_eq_true (fun he => h (he ▸ hc))
    rw [takeString, ← hdrop]
    cases s.dropWhile (· ≠ '"') with
    | nil => simp
    | cons d rest => simp
  · simp [takeString, hc]

theorem takeOp_eq_none {c : Char} :
    takeOp (c :: s) = none ↔
      c ≠ '=' ∧ c ≠ '~' ∧ (c = '!' ∨ c = '>' ∨ c = '<' → s.head? ≠ some '=') := by
  unfold takeOp
  split
  case h_6 hne hge hle heq hcontains =>
    apply iff_of_true rfl
    refine ⟨fun hc => heq s (by rw [hc]), fun hc => hcontains s (by rw [hc]), ?_⟩
    rintro hc hs
    obtain ⟨rest, rfl⟩ := List.head?_eq_some_iff.mp hs
    rcases hc with rfl | rfl | rfl
    · exact hne rest rfl
    · exact hge rest rfl
    · exact hle rest rfl
  all_goals simp_all

theorem takePunctuation_eq_none {c : Char} :
    takePunctuation (c :: s) = none ↔ c ≠ '(' ∧ c ≠ ')' ∧ c ≠ ',' := by
  unfold takePunctuation
  split <;> simp_all

theorem takeWord_eq_none {c : Char} : takeWord (c :: s) = none ↔ isWordChar c = false := by
  cases hc : isWordChar c with
  | true => simp [takeWord, hc]
  | false => simp [takeWord, hc]

theorem takeToken_eq_none {c : Char} :
    takeToken (c :: s) = none ↔ isSpace c = true ∨ c = '"' ∧ '"' ∉ s := by
  simp only [takeToken, Option.orElse_eq_orElse, Option.orElse_eq_or, Option.or_eq_none_iff, takeString_eq_none,
    takeOp_eq_none, takePunctuation_eq_none, takeWord_eq_none]
  constructor
  · rintro ⟨hstring, _, ⟨hl, hr, hcomma⟩, hword⟩
    by_cases hquote : c = '"'
    · exact Or.inr ⟨hquote, hstring.resolve_left (not_not.mpr hquote)⟩
    · left
      simpa [isWordChar, hl, hr, hcomma, hquote] using hword
  · intro h
    have hspecial : ∀ d ∈ ['=', '~', '!', '>', '<', '(', ')', ','], c ≠ d := by
      rintro d hd rfl
      have hall : ['=', '~', '!', '>', '<', '(', ')', ','].all (fun d => !isSpace d && d ≠ '"') = true := by decide
      have hclash := List.all_eq_true.mp hall c hd
      rcases h with hspace | ⟨hquote, _⟩
      · simp [hspace] at hclash
      · simp [hquote] at hclash
    simp only [List.forall_mem_cons] at hspecial
    obtain ⟨heq, hcontains, hnot, hgt, hlt, hl, hr, hcomma, _⟩ := hspecial
    refine ⟨?_, ⟨heq, hcontains, by tauto⟩, ⟨hl, hr, hcomma⟩, ?_⟩
    · rcases h with hspace | ⟨_, hclosed⟩
      · left
        rintro rfl
        exact absurd hspace (by decide)
      · exact Or.inr hclosed
    · rcases h with hspace | ⟨rfl, _⟩
      · simp [isWordChar, hspace]
      · decide

theorem takeString_closed {inner : List Char} (h : '"' ∉ inner) (rest : List Char) :
    takeString ('"' :: (inner ++ '"' :: rest)) = some (.string (String.ofList inner), rest) := by
  have hinner : ∀ c ∈ inner, decide (c ≠ '"') = true := fun c hc => decide_eq_true fun he => h (he ▸ hc)
  rw [takeString, List.dropWhile_append_of_pos hinner, List.takeWhile_append_of_pos hinner]
  simp

theorem takeString_eq_some :
    takeString s = some (t, rest) ↔
      ∃ inner, '"' ∉ inner ∧ s = '"' :: (inner ++ '"' :: rest) ∧ t = .string (String.ofList inner) := by
  constructor
  · intro h
    unfold takeString at h
    split at h
    · rename_i s
      split at h
      · cases h
      · rename_i quote after hafter
        cases h
        have hsplit := List.takeWhile_append_dropWhile (p := fun c => decide (c ≠ '"')) (l := s)
        have hquote : quote = '"' := by
          have hhead := List.head?_dropWhile_not (fun c => decide (c ≠ '"')) s
          rw [hafter] at hhead
          simpa using hhead
        rw [hafter, hquote] at hsplit
        refine ⟨s.takeWhile (· ≠ '"'), ?_, ?_, rfl⟩
        · intro hmem
          exact absurd (List.mem_takeWhile_imp hmem) (by decide)
        · rw [hsplit]
    · cases h
  · rintro ⟨inner, hinner, rfl, rfl⟩
    exact takeString_closed hinner rest

theorem takeOp_eq_some (h : takeOp s = some (t, rest)) :
    ∃ body, body ≠ [] ∧ s = body ++ rest ∧ body.count '"' = 0 ∧
      ∀ rest', takeToken (body ++ rest') = some (t, rest') := by
  unfold takeOp at h
  split at h <;> cases h
  case h_1 => exact ⟨['!', '='], List.cons_ne_nil _ _, rfl, rfl, fun _ => rfl⟩
  case h_2 => exact ⟨['>', '='], List.cons_ne_nil _ _, rfl, rfl, fun _ => rfl⟩
  case h_3 => exact ⟨['<', '='], List.cons_ne_nil _ _, rfl, rfl, fun _ => rfl⟩
  case h_4 => exact ⟨['='], List.cons_ne_nil _ _, rfl, rfl, fun _ => rfl⟩
  case h_5 => exact ⟨['~'], List.cons_ne_nil _ _, rfl, rfl, fun _ => rfl⟩

theorem takePunctuation_eq_some (h : takePunctuation s = some (t, rest)) :
    ∃ body, body ≠ [] ∧ s = body ++ rest ∧ body.count '"' = 0 ∧
      ∀ rest', takeToken (body ++ rest') = some (t, rest') := by
  unfold takePunctuation at h
  split at h <;> cases h
  case h_1 => exact ⟨['('], List.cons_ne_nil _ _, rfl, rfl, fun _ => rfl⟩
  case h_2 => exact ⟨[')'], List.cons_ne_nil _ _, rfl, rfl, fun _ => rfl⟩
  case h_3 => exact ⟨[','], List.cons_ne_nil _ _, rfl, rfl, fun _ => rfl⟩

theorem takeWord_eq_some :
    takeWord s = some (t, rest) ↔
      ∃ body, body ≠ [] ∧ (∀ c ∈ body, isWordChar c = true) ∧ rest.takeWhile isWordChar = [] ∧
        s = body ++ rest ∧ t = .word (String.ofList body) := by
  constructor
  · intro h
    unfold takeWord at h
    split at h
    · cases h
    · rename_i body hbody
      cases h
      refine ⟨s.takeWhile isWordChar, hbody, ?_, ?_, List.takeWhile_append_dropWhile.symm, rfl⟩
      · exact fun c hc => List.mem_takeWhile_imp hc
      · have hhead := List.head?_dropWhile_not isWordChar s
        cases hrest : s.dropWhile isWordChar with
        | nil => rfl
        | cons d tail =>
          rw [hrest] at hhead
          exact List.takeWhile_cons_of_neg (by simpa using hhead)
  · rintro ⟨body, hbody, hword, hend, rfl, rfl⟩
    have htake : (body ++ rest).takeWhile isWordChar = body := by
      rw [List.takeWhile_append_of_pos hword, hend, List.append_nil]
    have hdrop : (body ++ rest).dropWhile isWordChar = rest := by
      have hsplit := List.takeWhile_append_dropWhile (p := isWordChar) (l := body ++ rest)
      rw [htake] at hsplit
      exact List.append_cancel_left hsplit
    rw [takeWord, hdrop, htake]
    split
    · exact absurd rfl hbody
    · rfl

theorem takeOp_word {c : Char} {body : List Char} {rest' : List Char} (h : takeOp (c :: (body ++ rest)) = none)
    (hend : rest'.takeWhile isWordChar = []) : takeOp (c :: (body ++ rest')) = none := by
  obtain ⟨heq, hcontains, hhead⟩ := takeOp_eq_none.mp h
  refine takeOp_eq_none.mpr ⟨heq, hcontains, fun hc => ?_⟩
  cases body with
  | nil =>
    intro hrest
    obtain ⟨tail, rfl⟩ := List.head?_eq_some_iff.mp hrest
    cases hend
  | cons d body => exact hhead hc

theorem takeToken_local (h : takeToken s = some (t, rest)) :
    ∃ body, body ≠ [] ∧ s = body ++ rest ∧ body.count '"' % 2 = 0 ∧
      ∀ rest', (rest.takeWhile isWordChar = [] → rest'.takeWhile isWordChar = []) →
        takeToken (body ++ rest') = some (t, rest') := by
  rcases takeToken_cases h with h | h | h | ⟨_, hop, hpunctuation, h⟩
  · obtain ⟨inner, hinner, rfl, rfl⟩ := takeString_eq_some.mp h
    refine ⟨'"' :: (inner ++ ['"']), List.cons_ne_nil _ _, by simp, ?_, ?_⟩
    · simp [List.count_eq_zero_of_not_mem hinner]
    · intro rest' _
      have htake := takeString_closed hinner rest'
      simp [takeToken, htake]
  · obtain ⟨body, hbody, hs, hcount, hlocal⟩ := takeOp_eq_some h
    exact ⟨body, hbody, hs, by rw [hcount], fun rest' _ => hlocal rest'⟩
  · obtain ⟨body, hbody, hs, hcount, hlocal⟩ := takePunctuation_eq_some h
    exact ⟨body, hbody, hs, by rw [hcount], fun rest' _ => hlocal rest'⟩
  · obtain ⟨body, hbody, hword, hend, rfl, rfl⟩ := takeWord_eq_some.mp h
    have hquote : '"' ∉ body := fun hmem => absurd (hword _ hmem) (by decide)
    refine ⟨body, hbody, rfl, by rw [List.count_eq_zero_of_not_mem hquote], ?_⟩
    intro rest' hrest
    have htake := takeWord_eq_some.mpr ⟨body, hbody, hword, hrest hend, rfl, rfl⟩
    obtain ⟨c, body, rfl⟩ := List.exists_cons_of_ne_nil hbody
    -- no earlier alternative matches with `rest'` behind the word either
    have hstring : takeString (c :: (body ++ rest')) = none :=
      takeString_eq_none.mpr (Or.inl fun he => hquote (he ▸ List.mem_cons_self))
    rw [List.cons_append] at hop hpunctuation htake ⊢
    rw [takeToken, hstring, takeOp_word hop (hrest hend),
      takePunctuation_eq_none.mpr (takePunctuation_eq_none.mp hpunctuation), htake]
    rfl

theorem takeToken_shorter (h : takeToken s = some (t, rest)) : rest.length < s.length := by
  obtain ⟨body, hbody, rfl, _, _⟩ := takeToken_local h
  have hpos := List.length_pos_of_ne_nil hbody
  rw [List.length_append]
  omega

def lexeme : Rule Char Token := ⟨takeToken, takeToken_shorter⟩

def tokenize (input : String) : List Token := scan lexeme input.toList

def Lexed (s : List Char) (ts : List Token) : Prop := Lexes lexeme (fun c => isSpace c = true) s ts

/-- The text with its last quote read as a space. -/
def blankLastQuote : List Char → List Char
  | [] => []
  | c :: s => if c = '"' ∧ '"' ∉ s then ' ' :: s else c :: blankLastQuote s

theorem blankLastQuote_append {tail : List Char} (h : '"' ∈ tail) (s : List Char) :
    blankLastQuote (s ++ tail) = s ++ blankLastQuote tail := by
  induction s with
  | nil => rfl
  | cons c s ih =>
    have hmem : '"' ∈ s ++ tail := List.mem_append_right s h
    rw [List.cons_append, blankLastQuote, if_neg (by simp [hmem]), ih, List.cons_append]

theorem takeWhile_blankLastQuote (s : List Char) :
    (blankLastQuote s).takeWhile isWordChar = s.takeWhile isWordChar := by
  induction s with
  | nil => rfl
  | cons c s ih =>
    rw [blankLastQuote]
    split
    · rename_i hlast
      rw [hlast.1]
      rfl
    · rw [List.takeWhile_cons, List.takeWhile_cons, ih]

theorem count_blankLastQuote (h : '"' ∈ s) : (blankLastQuote s).count '"' + 1 = s.count '"' := by
  induction s with
  | nil => cases h
  | cons c s ih =>
    rw [blankLastQuote]
    split
    · rename_i hlast
      simp [hlast.1]
    · rename_i hmore
      have hmem : '"' ∈ s := by
        by_contra hnone
        rcases List.mem_cons.mp h with hc | hs
        · exact hmore ⟨hc.symm, hnone⟩
        · exact hnone hs
      rw [List.count_cons, List.count_cons, ← ih hmem]
      omega

theorem count_of_take (h : takeToken s = some (t, rest)) : s.count '"' % 2 = rest.count '"' % 2 := by
  obtain ⟨body, _, rfl, heven, _⟩ := takeToken_local h
  rw [List.count_append]
  omega

theorem count_of_isSpace {c : Char} (h : isSpace c = true) (s : List Char) : (c :: s).count '"' = s.count '"' := by
  have hc : c ≠ '"' := by
    rintro rfl
    exact absurd h (by decide)
  rw [List.count_cons_of_ne hc]

/-- A text lexes exactly when its quotes are paired, and then the search finds its lexemes. -/
theorem lexed_iff {ts : List Token} : Lexed s ts ↔ s.count '"' % 2 = 0 ∧ scan lexeme s = ts := by
  constructor
  · intro h
    refine ⟨?_, h.scan_eq fun c s hc => takeToken_eq_none.mpr (Or.inl hc)⟩
    induction h with
    | nil => rfl
    | skip hc hs ih => rw [count_of_isSpace hc, ih]
    | lexeme ht hs ih => rw [count_of_take ht, ih]
  · rintro ⟨heven, rfl⟩
    revert heven
    induction s using lexeme.induct with
    | nil => exact fun _ => .nil
    | lexeme s t rest ht ih =>
      intro heven
      rw [scan_of_take ht]
      exact .lexeme ht (ih ((count_of_take ht).symm.trans heven))
    | skip c s hskip ih =>
      intro heven
      rw [scan_of_not_take hskip]
      rcases takeToken_eq_none.mp hskip with hspace | ⟨rfl, hnone⟩
      · rw [count_of_isSpace hspace] at heven
        exact .skip hspace (ih heven)
      · -- a quote that nothing closes is the only one left
        rw [List.count_cons_self, List.count_eq_zero_of_not_mem hnone] at heven
        cases heven

theorem scan_blankLastQuote (h : s.count '"' % 2 = 1) : scan lexeme (blankLastQuote s) = scan lexeme s := by
  revert h
  induction s using lexeme.induct with
  | nil => exact fun h => absurd h (by decide)
  | lexeme s t rest ht ih =>
    intro hodd
    obtain ⟨body, _, rfl, heven, hlocal⟩ := takeToken_local ht
    rw [List.count_append] at hodd
    have hrest : rest.count '"' % 2 = 1 := by omega
    have hmem : '"' ∈ rest := List.count_pos_iff.mp (by omega)
    have hblank := hlocal (blankLastQuote rest) fun hend => (takeWhile_blankLastQuote rest).trans hend
    rw [blankLastQuote_append hmem, scan_of_take ht, scan_of_take hblank, ih hrest]
  | skip c s hskip ih =>
    intro hodd
    rw [scan_of_not_take hskip, blankLastQuote]
    rcases takeToken_eq_none.mp hskip with hspace | hlast
    · have hc : ¬ (c = '"' ∧ '"' ∉ s) := by
        rintro ⟨rfl, _⟩
        exact absurd hspace (by decide)
      rw [count_of_isSpace hspace] at hodd
      rw [if_neg hc, scan_of_not_take (takeToken_eq_none.mpr (Or.inl hspace)), ih hodd]
    · rw [if_pos hlast, scan_of_not_take (takeToken_eq_none.mpr (Or.inl (by decide)))]

theorem isSpace_of_trim {input : String} (h : trim input = "") : ∀ c ∈ input.toList, isSpace c = true := by
  have hempty : ((input.toList.dropWhile isSpace).reverse.dropWhile isSpace).reverse = [] := by
    have hlist := congrArg String.toList h
    simpa [trim] using hlist
  rw [List.reverse_eq_nil_iff, List.dropWhile_eq_nil_iff] at hempty
  intro c hc
  rw [← List.takeWhile_append_dropWhile (p := isSpace) (l := input.toList)] at hc
  rcases List.mem_append.mp hc with hbefore | hafter
  · exact List.mem_takeWhile_imp hbefore
  · exact hempty c (List.mem_reverse.mpr hafter)

theorem tokenize_of_trim {input : String} (h : trim input = "") : tokenize input = [] := by
  have hspace := isSpace_of_trim h
  rw [tokenize]
  generalize input.toList = s at hspace
  induction s with
  | nil => rfl
  | cons c s ih =>
    rw [scan_of_not_take (takeToken_eq_none.mpr (Or.inl (hspace c List.mem_cons_self)))]
    exact ih fun d hd => hspace d (List.mem_cons_of_mem c hd)

end Cimp.Jql
