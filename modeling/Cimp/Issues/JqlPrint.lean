import Mathlib.Data.List.Forall2
import Cimp.Issues.Jql

namespace Cimp.Jql

open Scanner

/-- The case mappings on ASCII text. -/
structure Runtime.CasesAscii (js : Runtime) : Prop where
  lower : ∀ s : String, (∀ c ∈ s.toList, c.toNat < 128) →
    js.toLowerCase s = String.ofList (s.toList.map Char.toLower)
  upper : ∀ s : String, (∀ c ∈ s.toList, c.toNat < 128) →
    js.toUpperCase s = String.ofList (s.toList.map Char.toUpper)

def Token.text : Token → List Char
  | .string v => '"' :: (v.toList ++ ['"'])
  | t => t.value.toList

def listTokens : List String → List Token
  | [] => [.rparen]
  | [v] => [.string v, .rparen]
  | v :: vs => .string v :: .comma :: listTokens vs

def clauseTokens (f : JqlFilter) : List Token :=
  .word f.field ::
    match f.op with
    | .compare c => .op c :: f.values.map .string
    | .isIn => .word "in" :: .lparen :: listTokens f.values

def queryTokens : List JqlFilter → List Token
  | [] => []
  | [f] => clauseTokens f
  | f :: fs => clauseTokens f ++ .word "and" :: queryTokens fs

/-- The same token, a word in any letter casing. -/
inductive Recased : Token → Token → Prop
  | word {v w : String} : w.toList.map Char.toLower = v.toList → Recased (.word v) (.word w)
  | same (t : Token) : Recased t t

/-- A text with the tokens in order and white space between any two of them. -/
inductive Spaced : List Token → List Char → Prop
  | nil : Spaced [] []
  | last (t : Token) : Spaced [t] t.text
  | cons (t : Token) {gap s : List Char} {ts : List Token} :
      gap ≠ [] → (∀ c ∈ gap, isSpace c = true) → Spaced ts s → Spaced (t :: ts) (t.text ++ (gap ++ s))

/-- The ways to print a list of filters. -/
def Prints (filters : List JqlFilter) (s : String) : Prop :=
  ∃ ts, List.Forall₂ Recased (queryTokens filters) ts ∧ Spaced ts s.toList

def isLetter (c : Char) : Bool := 'a' ≤ c && c ≤ 'z'

def Name (v : String) : Prop := v.toList ≠ [] ∧ ∀ c ∈ v.toList, isLetter c = true

instance (v : String) : Decidable (Name v) :=
  decidable_of_iff (v.toList ≠ [] ∧ v.toList.all isLetter = true) (and_congr_right fun _ => List.all_eq_true)

variable {js : Runtime} {spec : FieldSpec} {s rest : List Char} {v w : String} {c : Char}

theorem isLetter_iff : isLetter c = true ↔ 97 ≤ c.toNat ∧ c.toNat ≤ 122 := by
  rw [isLetter, Bool.and_eq_true, decide_eq_true_eq, decide_eq_true_eq]
  exact Iff.rfl

theorem toNat_of_lower (h : isLetter c.toLower = true) :
    65 ≤ c.toNat ∧ c.toNat ≤ 90 ∨ 97 ≤ c.toNat ∧ c.toNat ≤ 122 := by
  by_cases hupper : c.val ≥ 'A'.val ∧ c.val ≤ 'Z'.val
  · exact Or.inl hupper
  · have hlower : c.toLower = c := dif_neg hupper
    exact Or.inr (isLetter_iff.mp (hlower ▸ h))

theorem toLower_of_letter (h : isLetter c = true) : c.toLower = c := by
  have hc := isLetter_iff.mp h
  have hupper : ¬ (c.val ≥ 'A'.val ∧ c.val ≤ 'Z'.val) := by
    rintro ⟨_, hle⟩
    have hle : c.toNat ≤ 90 := hle
    omega
  exact dif_neg hupper

theorem isSpace_of_letter (h : isLetter c.toLower = true) : isSpace c = false := by
  have hc := toNat_of_lower h
  simp only [isSpace, List.mem_cons, List.not_mem_nil, or_false, Bool.or_eq_false_iff, decide_eq_false_iff_not,
    Bool.and_eq_false_iff]
  omega

theorem ne_of_letter {d : Char} (h : isLetter c.toLower = true) (hd : isLetter d.toLower = false) : c ≠ d := by
  rintro rfl
  rw [h] at hd
  cases hd

theorem isWordChar_of_letter (h : isLetter c.toLower = true) : isWordChar c = true := by
  have hl := ne_of_letter (d := '(') h rfl
  have hr := ne_of_letter (d := ')') h rfl
  have hcomma := ne_of_letter (d := ',') h rfl
  have hquote := ne_of_letter (d := '"') h rfl
  simp [isWordChar, isSpace_of_letter h, hl, hr, hcomma, hquote]

theorem Name.letters (h : Name v) (hw : w.toList.map Char.toLower = v.toList) :
    w.toList ≠ [] ∧ ∀ c ∈ w.toList, isLetter c.toLower = true := by
  constructor
  · intro hnil
    rw [hnil] at hw
    exact h.1 hw.symm
  · intro c hc
    exact h.2 _ (hw ▸ List.mem_map_of_mem hc)

theorem toLowerCase_of_cased (hjs : js.CasesAscii) (h : Name v) (hw : w.toList.map Char.toLower = v.toList) :
    js.toLowerCase w = v := by
  have hascii : ∀ c ∈ w.toList, c.toNat < 128 := by
    intro c hc
    have hletter := toNat_of_lower ((h.letters hw).2 c hc)
    omega
  rw [hjs.lower w hascii, hw, String.ofList_toList]

theorem fields_named : ∀ p ∈ fields, Name p.1 := by decide

theorem name_of_lookup (h : fields.lookup v = some spec) : Name v := fields_named _ (mem_of_lookup h)

theorem takeToken_of_letters (hne : s ≠ []) (h : ∀ c ∈ s, isLetter c.toLower = true)
    (hrest : rest.takeWhile isWordChar = []) : takeToken (s ++ rest) = some (.word (String.ofList s), rest) := by
  have htake := takeWord_eq_some.mpr
    ⟨s, hne, fun c hc => isWordChar_of_letter (h c hc), hrest, rfl, rfl⟩
  obtain ⟨c, s, rfl⟩ := List.exists_cons_of_ne_nil hne
  have hc := h c List.mem_cons_self
  have hquote := ne_of_letter (d := '"') hc rfl
  have hop : takeOp (c :: (s ++ rest)) = none := by
    refine takeOp_eq_none.mpr ⟨ne_of_letter hc rfl, ne_of_letter hc rfl, ?_⟩
    rintro (rfl | rfl | rfl) <;> cases hc
  have hpunctuation : takePunctuation (c :: (s ++ rest)) = none :=
    takePunctuation_eq_none.mpr ⟨ne_of_letter hc rfl, ne_of_letter hc rfl, ne_of_letter hc rfl⟩
  rw [List.cons_append] at htake ⊢
  rw [takeToken, takeString_eq_none.mpr (Or.inl hquote), hop, hpunctuation, htake]
  rfl

/-- The tokens a query is printed with: a name, or a quoted text without quotes in it. -/
def Token.Plain : Token → Prop
  | .word v => Name v
  | .string v => '"' ∉ v.toList
  | _ => True

theorem Recased.cased {t : Token} (h : Recased (.word v) t) (hname : Name v) :
    ∃ w, t = .word w ∧ w.toList.map Char.toLower = v.toList := by
  cases h with
  | word hw => exact ⟨_, rfl, hw⟩
  | same =>
    have hlower : v.toList.map Char.toLower = v.toList.map id :=
      List.map_congr_left fun c hc => toLower_of_letter (hname.2 c hc)
    exact ⟨v, rfl, hlower.trans (List.map_id _)⟩

theorem takeToken_text {t t' : Token} (ht : t.Plain) (hcased : Recased t t') (hrest : rest.takeWhile isWordChar = []) :
    takeToken (t'.text ++ rest) = some (t', rest) := by
  cases t with
  | word v =>
    obtain ⟨w, rfl, hw⟩ := hcased.cased ht
    obtain ⟨hne, hletters⟩ := Name.letters ht hw
    rw [Token.text, Token.value, takeToken_of_letters hne hletters hrest, String.ofList_toList]
    exact fun v => Token.noConfusion
  | string v =>
    cases hcased
    have htake := takeString_closed ht rest
    rw [String.ofList_toList] at htake
    simp [Token.text, takeToken, htake]
  | op c =>
    cases hcased
    cases c <;> rfl
  | lparen =>
    cases hcased
    rfl
  | rparen =>
    cases hcased
    rfl
  | comma =>
    cases hcased
    rfl

theorem scan_gap {gap : List Char} (h : ∀ c ∈ gap, isSpace c = true) (s : List Char) :
    scan lexeme (gap ++ s) = scan lexeme s := by
  induction gap with
  | nil => rfl
  | cons c gap ih =>
    have hskip := takeToken_eq_none (s := gap ++ s).mpr (Or.inl (h c List.mem_cons_self))
    rw [List.cons_append, scan_of_not_take hskip]
    exact ih fun d hd => h d (List.mem_cons_of_mem c hd)

theorem takeWhile_gap {gap : List Char} (hne : gap ≠ []) (h : ∀ c ∈ gap, isSpace c = true) (s : List Char) :
    (gap ++ s).takeWhile isWordChar = [] := by
  obtain ⟨c, gap, rfl⟩ := List.exists_cons_of_ne_nil hne
  have hc := h c List.mem_cons_self
  rw [List.cons_append, List.takeWhile_cons_of_neg]
  simp [isWordChar, hc]

theorem scan_spaced {ts ts' : List Token} (hplain : ∀ t ∈ ts, t.Plain) (hcased : List.Forall₂ Recased ts ts')
    (hs : Spaced ts' s) : scan lexeme s = ts' := by
  induction hs generalizing ts with
  | nil => rfl
  | last t =>
    cases hcased with
    | cons ht hnil =>
      have hend : ([] : List Char).takeWhile isWordChar = [] := rfl
      have htake := takeToken_text (hplain _ List.mem_cons_self) ht hend
      rw [List.append_nil] at htake
      rw [scan_of_take htake]
      rfl
  | @cons t gap s ts hne hgap _ ih =>
    cases hcased with
    | cons ht htail =>
      have htake := takeToken_text (hplain _ List.mem_cons_self) ht (takeWhile_gap hne hgap s)
      rw [scan_of_take htake, scan_gap hgap, ih (fun t hmem => hplain t (List.mem_cons_of_mem _ hmem)) htail]

theorem enumValues_upper : ∀ p ∈ fields, ∀ v ∈ p.2.enumValues.getD [],
    (v.toList.all fun c => c.toNat < 128) = true ∧ v.toList.map Char.toUpper = v.toList := by decide

theorem Documented.accepts {filter : JqlFilter} (hjs : js.CasesAscii) (h : Documented js spec filter)
    (hv : v ∈ filter.values) : Accepts js spec v v := by
  have hstored := h.stored v hv
  refine ⟨fun enumValues henum => ⟨?_, hstored.member enumValues henum⟩, fun _ => rfl, fun _ => hstored.date⟩
  have hmem : v ∈ spec.enumValues.getD [] := by
    rw [henum]
    exact hstored.member enumValues henum
  obtain ⟨hascii, hupper⟩ := enumValues_upper _ (mem_of_lookup h.field) v hmem
  rw [hjs.upper v (by simpa using hascii), hupper, String.ofList_toList]

theorem inList_of_listTokens {vs : List String} {ts : List Token} (hne : vs ≠ [])
    (hcased : List.Forall₂ Recased (listTokens vs) ts) (haccepts : ∀ v ∈ vs, Accepts js spec v v) :
    InList js spec ts vs := by
  induction vs using listTokens.induct generalizing ts with
  | case1 => exact absurd rfl hne
  | case2 v =>
    obtain _ | ⟨hv, _ | ⟨hparen, hnil⟩⟩ := hcased
    cases hv
    cases hparen
    cases hnil
    exact .last rfl (haccepts v List.mem_cons_self)
  | case3 v vs hmore ih =>
    rw [listTokens] at hcased
    · obtain _ | ⟨hv, _ | ⟨hcomma, hrest⟩⟩ := hcased
      cases hv
      cases hcomma
      exact .cons rfl (haccepts v List.mem_cons_self)
        (ih hmore hrest fun v hmem => haccepts v (List.mem_cons_of_mem _ hmem))
    · exact hmore

theorem Recased.keyword {t : Token} (hjs : js.CasesAscii) (h : Recased (.word v) t) (hname : Name v) :
    ∃ w, t = .word w ∧ js.toLowerCase w = v := by
  obtain ⟨w, rfl, hw⟩ := h.cased hname
  exact ⟨w, rfl, toLowerCase_of_cased hjs hname hw⟩

theorem keyword_names : Name "in" ∧ Name "and" := by decide

theorem values_of_clauseTokens {f : JqlFilter} {ts : List Token} (hjs : js.CasesAscii) (h : Documented js spec f)
    (hcased : List.Forall₂ Recased (clauseTokens f).tail ts) :
    ∃ tok list, ts = tok :: list ∧ Operator js tok f.op ∧ Values js spec f.op list f.values := by
  obtain ⟨field, op, values⟩ := f
  have haccepts := fun v hv => h.accepts hjs (v := v) hv
  cases op with
  | compare c =>
    have hlength := h.single fun hop => by cases hop
    obtain ⟨v, rfl⟩ := List.length_eq_one_iff.mp hlength
    obtain _ | ⟨hop, _ | ⟨hv, hnil⟩⟩ := hcased
    cases hop
    cases hv
    cases hnil
    exact ⟨_, _, rfl, .compare c, .one rfl (haccepts v List.mem_cons_self)⟩
  | isIn =>
    obtain _ | ⟨hop, _ | ⟨hparen, hlist⟩⟩ := hcased
    obtain ⟨k, rfl, hk⟩ := hop.keyword hjs keyword_names.1
    cases hparen
    exact ⟨_, _, rfl, .isIn hk, .list (inList_of_listTokens h.nonempty hlist haccepts)⟩

theorem clause_of_clauseTokens {f : JqlFilter} {ts : List Token} (hjs : js.CasesAscii) (h : Documented js spec f)
    (hcased : List.Forall₂ Recased (clauseTokens f) ts) : Clause js ts f := by
  obtain ⟨field, op, values⟩ := f
  obtain _ | ⟨hfield, htail⟩ := hcased
  obtain ⟨w, rfl, hw⟩ := hfield.keyword hjs (name_of_lookup h.field)
  obtain ⟨tok, list, rfl, hop, hvalues⟩ := values_of_clauseTokens hjs h htail
  simp only at hw
  subst hw
  exact .intro h.field hop h.op hvalues

theorem recased_append {ts us both : List Token} (h : List.Forall₂ Recased (ts ++ us) both) :
    ∃ ts' us', both = ts' ++ us' ∧ List.Forall₂ Recased ts ts' ∧ List.Forall₂ Recased us us' :=
  ⟨_, _, (List.take_append_drop ts.length both).symm, (List.forall₂_take_append both ts us h.flip).flip,
    (List.forall₂_drop_append both ts us h.flip).flip⟩

theorem query_of_queryTokens {filters : List JqlFilter} {ts : List Token} (hjs : js.CasesAscii) (hne : filters ≠ [])
    (h : ∀ f ∈ filters, ∃ spec, Documented js spec f) (hcased : List.Forall₂ Recased (queryTokens filters) ts) :
    Query js ts filters := by
  induction filters using queryTokens.induct generalizing ts with
  | case1 => exact absurd rfl hne
  | case2 f =>
    obtain ⟨spec, hf⟩ := h f List.mem_cons_self
    exact .single (clause_of_clauseTokens hjs hf hcased)
  | case3 f fs hmore ih =>
    obtain ⟨spec, hf⟩ := h f List.mem_cons_self
    rw [queryTokens] at hcased
    · obtain ⟨clause, more, rfl, hclause, hcased⟩ := recased_append hcased
      obtain _ | ⟨hand, hrest⟩ := hcased
      obtain ⟨w, rfl, hw⟩ := hand.keyword hjs keyword_names.2
      exact .and (clause_of_clauseTokens hjs hf hclause) hw
        (ih hmore (fun f hmem => h f (List.mem_cons_of_mem _ hmem)) hrest)
    · exact hmore

theorem plain_listTokens {vs : List String} (h : ∀ v ∈ vs, '"' ∉ v.toList) : ∀ t ∈ listTokens vs, t.Plain := by
  induction vs using listTokens.induct with
  | case1 => simp [listTokens, Token.Plain]
  | case2 v => simpa [listTokens, Token.Plain] using h
  | case3 v vs hmore ih =>
    rw [listTokens]
    · have hrest := ih fun v hmem => h v (List.mem_cons_of_mem _ hmem)
      simpa [Token.Plain, h v List.mem_cons_self] using hrest
    · exact hmore

theorem plain_clauseTokens {f : JqlFilter} (h : fields.lookup f.field = some spec) (hquote : ∀ v ∈ f.values, '"' ∉ v.toList) :
    ∀ t ∈ clauseTokens f, t.Plain := by
  obtain ⟨field, op, values⟩ := f
  have hname := name_of_lookup h
  cases op with
  | compare c => simpa [clauseTokens, Token.Plain, hname] using hquote
  | isIn =>
    have hlist := plain_listTokens hquote
    simpa [clauseTokens, Token.Plain, hname, keyword_names.1] using hlist

theorem plain_queryTokens {filters : List JqlFilter} (h : ∀ f ∈ filters, ∃ spec, Documented js spec f)
    (hquote : ∀ f ∈ filters, ∀ v ∈ f.values, '"' ∉ v.toList) : ∀ t ∈ queryTokens filters, t.Plain := by
  induction filters using queryTokens.induct with
  | case1 => simp [queryTokens]
  | case2 f =>
    obtain ⟨spec, hf⟩ := h f List.mem_cons_self
    exact plain_clauseTokens hf.field (hquote f List.mem_cons_self)
  | case3 f fs hmore ih =>
    obtain ⟨spec, hf⟩ := h f List.mem_cons_self
    have hclause := plain_clauseTokens hf.field (hquote f List.mem_cons_self)
    have hrest := ih (fun f hmem => h f (List.mem_cons_of_mem _ hmem))
      fun f hmem => hquote f (List.mem_cons_of_mem _ hmem)
    rw [queryTokens]
    · intro t ht
      rcases List.mem_append.mp ht with hmem | hmem
      · exact hclause t hmem
      · rcases List.mem_cons.mp hmem with rfl | hmem
        · exact keyword_names.2
        · exact hrest t hmem
    · exact hmore

/-- Printing a list of filters and parsing the text again gives the list. -/
theorem parseJql_printed (js : Runtime) (hjs : js.CasesAscii) (filters : List JqlFilter) (hne : filters ≠ [])
    (hdocumented : ∀ f ∈ filters, ∃ spec, Documented js spec f)
    (hquote : ∀ f ∈ filters, ∀ v ∈ f.values, '"' ∉ v.toList) (text : String) (hprints : Prints filters text) :
    parseJql js text = .ok filters := by
  obtain ⟨ts, hcased, hspaced⟩ := hprints
  have htokens : tokenize text = ts := scan_spaced (plain_queryTokens hdocumented hquote) hcased hspaced
  rw [parseJql_eq_ok, htokens]
  exact query_of_queryTokens hjs hne hdocumented hcased

namespace Sample

theorem ascii_casesAscii : ascii.CasesAscii := ⟨fun _ _ => rfl, fun _ _ => rfl⟩

def quotedFilters : List JqlFilter := [⟨"status", .isIn, ["NEW", "CLOSED"]⟩, ⟨"text", .compare .contains, ["(a) AND, b = "]⟩]

def spelled : List Token :=
  [.word "Status", .word "iN", .lparen, .string "NEW", .comma, .string "CLOSED", .rparen, .word "And",
    .word "TEXT", .op .contains, .string "(a) AND, b = "]

theorem spelled_recased : List.Forall₂ Recased (queryTokens quotedFilters) spelled :=
  .cons (.word (by decide)) (.cons (.word (by decide)) (.cons (.same _) (.cons (.same _) (.cons (.same _) (.cons (.same _)
    (.cons (.same _) (.cons (.word (by decide)) (.cons (.word (by decide)) (.cons (.same _) (.cons (.same _) .nil))))))))))

theorem spaced_join (ts : List Token) : Spaced ts ((ts.map Token.text).intersperse [' ']).flatten := by
  induction ts with
  | nil => exact .nil
  | cons t ts ih =>
    cases ts with
    | nil =>
      have hlast := Spaced.last t
      simpa using hlast
    | cons t' ts =>
      have hcons := Spaced.cons t (List.cons_ne_nil ' ' []) (List.forall_mem_singleton.mpr rfl) ih
      simpa [List.intersperse] using hcons

end Sample

theorem parseJql_printed_spelled :
    parseJql Sample.ascii "Status iN ( \"NEW\" , \"CLOSED\" ) And TEXT ~ \"(a) AND, b = \"" = .ok Sample.quotedFilters := by
  apply parseJql_printed Sample.ascii Sample.ascii_casesAscii Sample.quotedFilters (by decide)
  · intro f hf
    rcases List.mem_cons.mp hf with rfl | hf
    · refine ⟨_, rfl, by decide, by decide, by decide, fun v hv => ⟨?_, fun hdate => by cases hdate⟩⟩
      intro enumValues henum
      cases henum
      revert v
      decide
    · obtain rfl := List.mem_singleton.mp hf
      refine ⟨_, rfl, by decide, by decide, by decide, fun v hv => ⟨?_, fun hdate => by cases hdate⟩⟩
      intro enumValues henum
      cases henum
  · decide
  · exact ⟨Sample.spelled, Sample.spelled_recased, Sample.spaced_join Sample.spelled⟩

end Cimp.Jql
