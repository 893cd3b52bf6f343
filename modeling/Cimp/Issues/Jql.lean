import Cimp.Issues.JqlLexer

namespace Cimp.Jql

open Scanner

structure Runtime where
  toLowerCase : String → String
  toUpperCase : String → String
  dateIsNaN : String → Bool

inductive Thrown
  | http (e : HttpException)
  | typeError (message : String)
deriving DecidableEq, Repr

def bad (message : String) : Thrown := .http (.badRequest ("JQL: " ++ message))

inductive JqlOp
  | compare (c : Comparison)
  | isIn
deriving DecidableEq, Repr

structure JqlFilter where
  field : String
  op : JqlOp
  values : List String
deriving DecidableEq, Repr

structure FieldSpec where
  ops : List JqlOp
  enumValues : Option (List String)
  isDate : Bool
deriving DecidableEq, Repr

def JqlOp.shown : JqlOp → String
  | compare c => c.text
  | isIn => "IN"

def equality : List JqlOp := [.compare .eq, .compare .ne]

def fields : List (String × FieldSpec) :=
  [("status", ⟨equality ++ [.isIn], some (IssueStatus.values.map IssueStatus.value), false⟩),
    ("priority", ⟨equality ++ [.isIn], some (Priority.values.map Priority.value), false⟩),
    ("platform", ⟨equality ++ [.isIn], none, false⟩),
    ("assignee", ⟨equality ++ [.compare .contains, .isIn], none, false⟩),
    ("reporter", ⟨equality ++ [.compare .contains], none, false⟩),
    ("label", ⟨equality ++ [.isIn], none, false⟩),
    ("created", ⟨[.compare .ge, .compare .le], none, true⟩),
    ("updated", ⟨[.compare .ge, .compare .le], none, true⟩),
    ("text", ⟨[.compare .contains], none, false⟩)]

def objectPrototype : List String :=
  ["constructor", "__proto__", "toString", "toLocaleString", "valueOf", "hasOwnProperty", "isPrototypeOf",
    "propertyIsEnumerable", "__defineGetter__", "__defineSetter__", "__lookupGetter__", "__lookupSetter__"]

/-- A truthy `FIELDS[field]`: an own entry, or an inherited function or object, which has no `ops`. -/
inductive Entry
  | own (spec : FieldSpec)
  | inherited
deriving DecidableEq, Repr

def lookup (field : String) : Option Entry :=
  match fields.lookup field with
  | some spec => some (.own spec)
  | none => if field ∈ objectPrototype then some .inherited else none

def isDigit (c : Char) : Bool := '0' ≤ c && c ≤ '9'

def isLineTerminator (c : Char) : Bool := c.toNat ∈ [0xa, 0xd, 0x2028, 0x2029]

/-- The pattern `/^\d{4}-\d{2}-\d{2}([T ].*)?$/`. -/
def isIsoDate (raw : String) : Bool :=
  match raw.toList with
  | y₁ :: y₂ :: y₃ :: y₄ :: '-' :: m₁ :: m₂ :: '-' :: d₁ :: d₂ :: time =>
    [y₁, y₂, y₃, y₄, m₁, m₂, d₁, d₂].all isDigit &&
      match time with
      | [] => true
      | c :: time => (c = 'T' || c = ' ') && time.all fun c => !isLineTerminator c
  | _ => false

def join (separator : String) (parts : List String) : String := separator.intercalate parts

def normalizeValue (js : Runtime) (field : String) (spec : FieldSpec) (raw : String) : Except Thrown String :=
  match spec.enumValues with
  | some enumValues =>
    if js.toUpperCase raw ∈ enumValues then .ok (js.toUpperCase raw)
    else .error (bad ("\"" ++ raw ++ "\" is not a valid " ++ field ++ ". Valid values: " ++
      join ", " enumValues ++ "."))
  | none =>
    if spec.isDate && (!isIsoDate raw || js.dateIsNaN raw) then
      .error (bad (field ++ " expects an ISO date (YYYY-MM-DD), got \"" ++ raw ++ "\"."))
    else .ok raw

def fieldName (js : Runtime) : List Token → Except Thrown (String × Entry × List Token)
  | [] => .error (bad "expected a field name at end of query.")
  | .word v :: rest =>
    match lookup (js.toLowerCase v) with
    | some entry => .ok (js.toLowerCase v, entry, rest)
    | none => .error (bad ("Unknown field \"" ++ v ++ "\". Fields: " ++ join ", " (fields.map Prod.fst) ++ "."))
  | tok :: _ => .error (bad ("expected a field name near \"" ++ tok.value ++ "\"."))

def isKeyword (js : Runtime) (name : String) : Token → Bool
  | .word v => js.toLowerCase v = name
  | _ => false

def operator (js : Runtime) (field : String) : List Token → Except Thrown (JqlOp × List Token)
  | .op c :: rest => .ok (.compare c, rest)
  | [] => .error (bad ("expected an operator after \"" ++ field ++ "\"."))
  | tok :: rest =>
    if isKeyword js "in" tok then .ok (.isIn, rest)
    else .error (bad ("expected an operator after \"" ++ field ++ "\", got \"" ++ tok.value ++ "\"."))

/-- `spec!.ops.includes(op)`. -/
def allowed (field : String) (op : JqlOp) : Entry → Except Thrown FieldSpec
  | .inherited => .error (.typeError "Cannot read properties of undefined (reading 'includes')")
  | .own spec =>
    if op ∈ spec.ops then .ok spec
    else .error (bad ("Operator \"" ++ op.shown ++ "\" is not valid for " ++ field ++ ". Allowed: " ++
      join " " (spec.ops.map JqlOp.shown) ++ "."))

def inValues (js : Runtime) (field : String) (spec : FieldSpec) :
    List Token → Except Thrown (List String × List Token)
  | [] => .error (bad ("expected a value in the " ++ field ++ " IN list."))
  | tok :: rest =>
    match tok.literal with
    | none => .error (bad ("expected a value in the " ++ field ++ " IN list."))
    | some raw => do
      let value ← normalizeValue js field spec raw
      match rest with
      | .rparen :: rest => .ok ([value], rest)
      | .comma :: rest => do
        let (values, rest) ← inValues js field spec rest
        .ok (value :: values, rest)
      | _ => .error (bad ("expected \",\" or \")\" in the " ++ field ++ " IN list."))

def inList (js : Runtime) (field : String) (spec : FieldSpec) :
    List Token → Except Thrown (List String × List Token)
  | .lparen :: rest => do
    let (values, rest) ← inValues js field spec rest
    if values.isEmpty then .error (bad (field ++ " IN list is empty."))
    else .ok (values, rest)
  | _ => .error (bad ("IN for " ++ field ++ " expects a parenthesized list, e.g. " ++ field ++ " IN (a, b)."))

def oneValue (js : Runtime) (field : String) (spec : FieldSpec) (c : Comparison) (tokens : List Token) :
    Except Thrown (List String × List Token) :=
  match tokens.head?.bind Token.literal with
  | none => .error (bad ("expected a value after \"" ++ field ++ " " ++ c.text ++
      "\". Quote values containing spaces."))
  | some raw => do
    let value ← normalizeValue js field spec raw
    .ok ([value], tokens.tail)

def clauseValues (js : Runtime) (field : String) (spec : FieldSpec) (op : JqlOp) (tokens : List Token) :
    Except Thrown (List String × List Token) :=
  match op with
  | .isIn => inList js field spec tokens
  | .compare c => oneValue js field spec c tokens

def clause (js : Runtime) (tokens : List Token) : Except Thrown (JqlFilter × List Token) := do
  let (field, entry, rest) ← fieldName js tokens
  let (op, rest) ← operator js field rest
  let spec ← allowed field op entry
  let (values, rest) ← clauseValues js field spec op rest
  .ok (⟨field, op, values⟩, rest)

def separator (js : Runtime) : List Token → Except Thrown (Option (List Token))
  | [] => .ok none
  | tok :: rest =>
    if isKeyword js "and" tok then
      if rest = [] then .error (bad "dangling AND at end of query.") else .ok (some rest)
    else if isKeyword js "or" tok then .error (bad "OR is not supported (filters are AND-only for now).")
    else .error (bad ("unexpected \"" ++ tok.value ++ "\" — clauses are joined with AND."))

variable {js : Runtime} {field : String} {spec : FieldSpec} {tokens rest : List Token} {tok : Token}

/-- What the parser stores for a raw value: a member of the enumeration, or the value itself. -/
structure Accepts (js : Runtime) (spec : FieldSpec) (raw value : String) : Prop where
  enum : ∀ enumValues, spec.enumValues = some enumValues → value = js.toUpperCase raw ∧ value ∈ enumValues
  plain : spec.enumValues = none → value = raw
  date : spec.enumValues = none → spec.isDate = true → isIsoDate value = true ∧ js.dateIsNaN value = false

inductive InList (js : Runtime) (spec : FieldSpec) : List Token → List String → Prop
  | last {tok : Token} {raw value : String} :
      tok.literal = some raw → Accepts js spec raw value → InList js spec [tok, .rparen] [value]
  | cons {tok : Token} {raw value : String} {rest : List Token} {values : List String} :
      tok.literal = some raw → Accepts js spec raw value → InList js spec rest values →
        InList js spec (tok :: .comma :: rest) (value :: values)

inductive Operator (js : Runtime) : Token → JqlOp → Prop
  | compare (c : Comparison) : Operator js (.op c) (.compare c)
  | isIn {k : String} : js.toLowerCase k = "in" → Operator js (.word k) .isIn

inductive Values (js : Runtime) (spec : FieldSpec) : JqlOp → List Token → List String → Prop
  | one {c : Comparison} {tok : Token} {raw value : String} :
      tok.literal = some raw → Accepts js spec raw value → Values js spec (.compare c) [tok] [value]
  | list {tokens : List Token} {values : List String} :
      InList js spec tokens values → Values js spec .isIn (.lparen :: tokens) values

/-- The rule clause := field op value | field IN (v, v, ...). -/
inductive Clause (js : Runtime) : List Token → JqlFilter → Prop
  | intro {v : String} {spec : FieldSpec} {op : JqlOp} {tok : Token} {list : List Token} {values : List String} :
      fields.lookup (js.toLowerCase v) = some spec → Operator js tok op → op ∈ spec.ops →
        Values js spec op list values → Clause js (.word v :: tok :: list) ⟨js.toLowerCase v, op, values⟩

/-- The rule clause (AND clause)*. -/
inductive Query (js : Runtime) : List Token → List JqlFilter → Prop
  | single {tokens : List Token} {filter : JqlFilter} : Clause js tokens filter → Query js tokens [filter]
  | and {tokens rest : List Token} {v : String} {filter : JqlFilter} {filters : List JqlFilter} :
      Clause js tokens filter → js.toLowerCase v = "and" → Query js rest filters →
        Query js (tokens ++ .word v :: rest) (filter :: filters)

theorem normalizeValue_eq_ok {raw value : String} :
    normalizeValue js field spec raw = .ok value ↔ Accepts js spec raw value := by
  unfold normalizeValue
  constructor
  · intro h
    split at h
    · rename_i enumValues henum
      split at h
      · rename_i hmem
        cases h
        refine ⟨?_, fun hnone => absurd (henum.symm.trans hnone) (by simp), fun hnone =>
          absurd (henum.symm.trans hnone) (by simp)⟩
        intro enumValues' henum'
        rw [henum] at henum'
        cases henum'
        exact ⟨rfl, hmem⟩
      · cases h
    · rename_i henum
      split at h
      · cases h
      · rename_i hdate
        cases h
        refine ⟨fun _ hsome => absurd (henum.symm.trans hsome) (by simp), fun _ => rfl, fun _ hisDate => ?_⟩
        simpa [hisDate] using hdate
  · intro h
    split
    · rename_i enumValues henum
      obtain ⟨rfl, hmem⟩ := h.enum enumValues henum
      rw [if_pos hmem]
    · rename_i henum
      obtain rfl := h.plain henum
      rw [if_neg]
      intro hbad
      simp only [Bool.and_eq_true, Bool.or_eq_true, Bool.not_eq_true'] at hbad
      obtain ⟨hiso, hnan⟩ := h.date henum hbad.1
      rw [hiso, hnan] at hbad
      simp at hbad

theorem normalizeValue_error {raw : String} {e : Thrown} (h : normalizeValue js field spec raw = .error e) :
    ∃ message, e = bad message := by
  unfold normalizeValue at h
  split at h
  all_goals
    split at h
    all_goals
      cases h
      try exact ⟨_, rfl⟩

theorem inValues_ok {values : List String} (h : inValues js field spec tokens = .ok (values, rest)) :
    ∃ tok raw value tail, tokens = tok :: tail ∧ tok.literal = some raw ∧ Accepts js spec raw value ∧
      (tail = .rparen :: rest ∧ values = [value] ∨
        ∃ tail' values', tail = .comma :: tail' ∧ inValues js field spec tail' = .ok (values', rest) ∧
          values = value :: values') := by
  cases tokens with
  | nil =>
    rw [inValues] at h
    cases h
  | cons tok tail =>
    rw [inValues] at h
    split at h
    · cases h
    · rename_i raw hraw
      obtain ⟨value, hvalue, htail⟩ := bind_ok h
      refine ⟨tok, raw, value, tail, rfl, hraw, normalizeValue_eq_ok.mp hvalue, ?_⟩
      split at htail
      · cases htail
        exact Or.inl ⟨rfl, rfl⟩
      · rename_i tail'
        obtain ⟨⟨values', rest'⟩, hrest, hvalues⟩ := bind_ok htail
        cases hvalues
        exact Or.inr ⟨_, values', rfl, hrest, rfl⟩
      · cases htail

theorem inValues_sound {values : List String} (h : inValues js field spec tokens = .ok (values, rest)) :
    ∃ list, tokens = list ++ rest ∧ InList js spec list values := by
  induction hn : tokens.length using Nat.strongRecOn generalizing tokens values with
  | _ n ih =>
    obtain ⟨tok, raw, value, tail, rfl, htok, hvalue, htail⟩ := inValues_ok h
    rcases htail with ⟨rfl, rfl⟩ | ⟨tail', values', rfl, hrest, rfl⟩
    · exact ⟨[tok, .rparen], rfl, .last htok hvalue⟩
    · obtain ⟨list, rfl, hlist⟩ := ih _ (by rw [← hn, List.length_cons, List.length_cons]; omega) hrest rfl
      exact ⟨tok :: .comma :: list, rfl, .cons htok hvalue hlist⟩

theorem inValues_complete {list : List Token} {values : List String} (h : InList js spec list values)
    (field : String) (rest : List Token) : inValues js field spec (list ++ rest) = .ok (values, rest) := by
  induction h with
  | last htok hvalue =>
    rw [List.cons_append, inValues, htok]
    simp only [normalizeValue_eq_ok.mpr hvalue]
    rfl
  | cons htok hvalue hrest ih =>
    rw [List.cons_append, inValues, htok]
    simp only [normalizeValue_eq_ok.mpr hvalue]
    change (do let (values, rest) ← inValues js field spec (_ ++ rest); Except.ok (_ :: values, rest)) = _
    rw [ih]
    rfl

theorem inValues_error {e : Thrown} (h : inValues js field spec tokens = .error e) : ∃ message, e = bad message := by
  induction hn : tokens.length using Nat.strongRecOn generalizing tokens with
  | _ n ih =>
    cases tokens with
    | nil =>
      rw [inValues] at h
      cases h
      exact ⟨_, rfl⟩
    | cons tok tail =>
      rw [inValues] at h
      split at h
      · cases h
        exact ⟨_, rfl⟩
      · rcases bind_error h with hvalue | ⟨value, _, htail⟩
        · exact normalizeValue_error hvalue
        · split at htail
          · cases htail
          · rcases bind_error htail with hrest | ⟨pair, _, hpair⟩
            · exact ih _ (by rw [← hn, List.length_cons, List.length_cons]; omega) hrest rfl
            · cases hpair
          · cases htail
            exact ⟨_, rfl⟩

theorem InList.values_ne_nil {list : List Token} {values : List String} (h : InList js spec list values) :
    values ≠ [] := by
  cases h <;> exact List.cons_ne_nil _ _

theorem InList.accepted {list : List Token} {values : List String} (h : InList js spec list values) :
    ∀ value ∈ values, ∃ raw, Accepts js spec raw value := by
  induction h with
  | last htok hvalue =>
    intro value hmem
    rw [List.mem_singleton.mp hmem]
    exact ⟨_, hvalue⟩
  | cons htok hvalue hrest ih =>
    intro value hmem
    rcases List.mem_cons.mp hmem with rfl | htail
    · exact ⟨_, hvalue⟩
    · exact ih value htail

theorem mem_of_lookup (h : fields.lookup field = some spec) : (field, spec) ∈ fields := by
  obtain ⟨before, after, hsplit, _⟩ := List.lookup_eq_some_iff.mp h
  exact hsplit ▸ List.mem_append_right before List.mem_cons_self

theorem lookup_own : lookup field = some (.own spec) ↔ fields.lookup field = some spec := by
  unfold lookup
  cases fields.lookup field with
  | some spec' => simp
  | none => simp

theorem lookup_inherited :
    lookup field = some .inherited ↔ fields.lookup field = none ∧ field ∈ objectPrototype := by
  unfold lookup
  cases fields.lookup field with
  | some spec' => simp
  | none => simp

theorem isKeyword_iff {name : String} :
    isKeyword js name tok = true ↔ ∃ v, tok = .word v ∧ js.toLowerCase v = name := by
  cases tok <;> simp [isKeyword]

theorem fieldName_ok {entry : Entry} (h : fieldName js tokens = .ok (field, entry, rest)) :
    ∃ v, tokens = .word v :: rest ∧ field = js.toLowerCase v ∧ lookup (js.toLowerCase v) = some entry := by
  unfold fieldName at h
  split at h
  · cases h
  · rename_i v rest'
    split at h
    · rename_i entry' hentry
      cases h
      exact ⟨v, rfl, rfl, hentry⟩
    · cases h
  · cases h

theorem fieldName_error {e : Thrown} (h : fieldName js tokens = .error e) : ∃ message, e = bad message := by
  unfold fieldName at h
  split at h
  · cases h
    exact ⟨_, rfl⟩
  · split at h
    · cases h
    · cases h
      exact ⟨_, rfl⟩
  · cases h
    exact ⟨_, rfl⟩

theorem operator_eq_ok {op : JqlOp} :
    operator js field tokens = .ok (op, rest) ↔ ∃ tok, tokens = tok :: rest ∧ Operator js tok op := by
  constructor
  · intro h
    unfold operator at h
    split at h
    · cases h
      exact ⟨_, rfl, .compare _⟩
    · cases h
    · split at h
      · rename_i hkeyword
        cases h
        obtain ⟨k, rfl, hk⟩ := isKeyword_iff.mp hkeyword
        exact ⟨_, rfl, .isIn hk⟩
      · cases h
  · rintro ⟨tok, rfl, hop⟩
    cases hop with
    | compare c => rfl
    | isIn hk => simp [operator, isKeyword, hk]

theorem operator_error {e : Thrown} (h : operator js field tokens = .error e) : ∃ message, e = bad message := by
  unfold operator at h
  split at h
  · cases h
  · cases h
    exact ⟨_, rfl⟩
  · split at h
    · cases h
    · cases h
      exact ⟨_, rfl⟩

theorem allowed_ok {op : JqlOp} {entry : Entry} (h : allowed field op entry = .ok spec) :
    entry = .own spec ∧ op ∈ spec.ops := by
  unfold allowed at h
  split at h
  · cases h
  · split at h
    · rename_i hop
      cases h
      exact ⟨rfl, hop⟩
    · cases h

theorem allowed_own {op : JqlOp} (h : op ∈ spec.ops) (field : String) : allowed field op (.own spec) = .ok spec :=
  if_pos h

theorem allowed_error {op : JqlOp} {entry : Entry} {e : Thrown} (h : allowed field op entry = .error e) :
    entry = .inherited ∨ ∃ message, e = bad message := by
  unfold allowed at h
  split at h
  · exact Or.inl rfl
  · split at h
    · cases h
    · cases h
      exact Or.inr ⟨_, rfl⟩

theorem clauseValues_sound {op : JqlOp} {values : List String}
    (h : clauseValues js field spec op tokens = .ok (values, rest)) :
    ∃ list, tokens = list ++ rest ∧ Values js spec op list values := by
  cases op with
  | compare c =>
    unfold clauseValues oneValue at h
    simp only at h
    split at h
    · cases h
    · rename_i raw hraw
      obtain ⟨value, hvalue, hvalues⟩ := bind_ok h
      cases hvalues
      obtain ⟨tok, htok, hliteral⟩ := Option.bind_eq_some_iff.mp hraw
      obtain ⟨tail, rfl⟩ := List.head?_eq_some_iff.mp htok
      exact ⟨[tok], rfl, .one hliteral (normalizeValue_eq_ok.mp hvalue)⟩
  | isIn =>
    unfold clauseValues inList at h
    simp only at h
    split at h
    · obtain ⟨⟨values', rest'⟩, hlist, hvalues⟩ := bind_ok h
      dsimp only at hvalues
      split at hvalues
      · cases hvalues
      · cases hvalues
        obtain ⟨list, rfl, hin⟩ := inValues_sound hlist
        exact ⟨.lparen :: list, rfl, .list hin⟩
    · cases h

theorem clauseValues_complete {op : JqlOp} {list : List Token} {values : List String}
    (h : Values js spec op list values) (field : String) (rest : List Token) :
    clauseValues js field spec op (list ++ rest) = .ok (values, rest) := by
  cases h with
  | one htok hvalue =>
    rw [clauseValues, oneValue, List.cons_append, List.head?_cons, Option.bind_some, htok]
    simp only [normalizeValue_eq_ok.mpr hvalue]
    rfl
  | list hin =>
    rw [clauseValues, List.cons_append, inList]
    simp only [inValues_complete hin field rest]
    exact if_neg (by simpa using hin.values_ne_nil)

theorem clauseValues_error {op : JqlOp} {e : Thrown} (h : clauseValues js field spec op tokens = .error e) :
    ∃ message, e = bad message := by
  cases op with
  | compare c =>
    unfold clauseValues oneValue at h
    simp only at h
    split at h
    · cases h
      exact ⟨_, rfl⟩
    · rcases bind_error h with hvalue | ⟨value, _, hpair⟩
      · exact normalizeValue_error hvalue
      · cases hpair
  | isIn =>
    unfold clauseValues inList at h
    simp only at h
    split at h
    · rcases bind_error h with hvalues | ⟨pair, _, hempty⟩
      · exact inValues_error hvalues
      · split at hempty
        · cases hempty
          exact ⟨_, rfl⟩
        · cases hempty
    · cases h
      exact ⟨_, rfl⟩

theorem clause_sound {filter : JqlFilter} (h : clause js tokens = .ok (filter, rest)) :
    ∃ list, tokens = list ++ rest ∧ Clause js list filter := by
  obtain ⟨⟨field, entry, afterField⟩, hfield, h⟩ := bind_ok h
  obtain ⟨⟨op, afterOp⟩, hop, h⟩ := bind_ok h
  obtain ⟨spec, hspec, h⟩ := bind_ok h
  obtain ⟨⟨values, afterValues⟩, hvalues, h⟩ := bind_ok h
  cases h
  obtain ⟨v, rfl, rfl, hentry⟩ := fieldName_ok hfield
  obtain ⟨tok, rfl, hoperator⟩ := operator_eq_ok.mp hop
  obtain ⟨rfl, hallowed⟩ := allowed_ok hspec
  obtain ⟨list, rfl, hlist⟩ := clauseValues_sound hvalues
  exact ⟨.word v :: tok :: list, rfl, .intro (lookup_own.mp hentry) hoperator hallowed hlist⟩

theorem clause_complete {list : List Token} {filter : JqlFilter} (h : Clause js list filter) (rest : List Token) :
    clause js (list ++ rest) = .ok (filter, rest) := by
  obtain ⟨hfield, hoperator, hallowed, hvalues⟩ := h
  rename_i v spec op tok list values
  have hname : fieldName js (.word v :: tok :: (list ++ rest)) =
      .ok (js.toLowerCase v, .own spec, tok :: (list ++ rest)) := by
    rw [fieldName, lookup_own.mpr hfield]
  have hop : operator js (js.toLowerCase v) (tok :: (list ++ rest)) = .ok (op, list ++ rest) :=
    operator_eq_ok.mpr ⟨tok, rfl, hoperator⟩
  rw [clause, List.cons_append, List.cons_append, bind_of_ok hname]
  dsimp only
  rw [bind_of_ok hop]
  dsimp only
  rw [bind_of_ok (allowed_own hallowed _), bind_of_ok (clauseValues_complete hvalues _ rest)]

def inheritedError : Thrown := .typeError "Cannot read properties of undefined (reading 'includes')"

inductive Inherited (js : Runtime) : List Token → Prop
  | intro {v : String} {op : JqlOp} {tok : Token} {rest : List Token} :
      fields.lookup (js.toLowerCase v) = none → js.toLowerCase v ∈ objectPrototype → Operator js tok op →
        Inherited js (.word v :: tok :: rest)

theorem clause_error {e : Thrown} (h : clause js tokens = .error e) :
    (∃ message, e = bad message) ∨ e = inheritedError ∧ Inherited js tokens := by
  rcases bind_error h with hfield | ⟨⟨field, entry, afterField⟩, hfield, h⟩
  · exact Or.inl (fieldName_error hfield)
  rcases bind_error h with hop | ⟨⟨op, afterOp⟩, hop, h⟩
  · exact Or.inl (operator_error hop)
  rcases bind_error h with hspec | ⟨spec, hspec, h⟩
  · obtain ⟨v, rfl, rfl, hentry⟩ := fieldName_ok hfield
    obtain ⟨tok, rfl, hoperator⟩ := operator_eq_ok.mp hop
    rcases allowed_error hspec with rfl | hbad
    · cases hspec
      obtain ⟨hnone, hmem⟩ := lookup_inherited.mp hentry
      exact Or.inr ⟨rfl, .intro hnone hmem hoperator⟩
    · exact Or.inl hbad
  rcases bind_error h with hvalues | ⟨⟨values, afterValues⟩, _, h⟩
  · exact Or.inl (clauseValues_error hvalues)
  · cases h

theorem clause_inherited (h : Inherited js tokens) : clause js tokens = .error inheritedError := by
  obtain ⟨hnone, hmem, hoperator⟩ := h
  rename_i v op tok rest
  have hname : fieldName js (.word v :: tok :: rest) = .ok (js.toLowerCase v, .inherited, tok :: rest) := by
    rw [fieldName, lookup_inherited.mpr ⟨hnone, hmem⟩]
  have hop : operator js (js.toLowerCase v) (tok :: rest) = .ok (op, rest) :=
    operator_eq_ok.mpr ⟨tok, rfl, hoperator⟩
  rw [clause, bind_of_ok hname]
  dsimp only
  rw [bind_of_ok hop]
  rfl

theorem Clause.ne_nil {filter : JqlFilter} (h : Clause js tokens filter) : tokens ≠ [] := by
  cases h
  exact List.cons_ne_nil _ _

theorem clause_shorter {filter : JqlFilter} (h : clause js tokens = .ok (filter, rest)) :
    rest.length < tokens.length := by
  obtain ⟨list, rfl, hclause⟩ := clause_sound h
  have hpos := List.length_pos_of_ne_nil hclause.ne_nil
  rw [List.length_append]
  omega

theorem separator_none : separator js tokens = .ok none ↔ tokens = [] := by
  unfold separator
  split
  · simp
  · split_ifs <;> simp

theorem separator_some :
    separator js tokens = .ok (some rest) ↔
      ∃ v, tokens = .word v :: rest ∧ js.toLowerCase v = "and" ∧ rest ≠ [] := by
  constructor
  · intro h
    unfold separator at h
    split at h
    · cases h
    · split at h
      · rename_i hand
        split at h
        · cases h
        · rename_i hrest
          cases h
          obtain ⟨v, rfl, hv⟩ := isKeyword_iff.mp hand
          exact ⟨v, rfl, hv, hrest⟩
      · split at h <;> cases h
  · rintro ⟨v, rfl, hv, hrest⟩
    simp [separator, isKeyword, hv, hrest]

theorem separator_error {e : Thrown} (h : separator js tokens = .error e) : ∃ message, e = bad message := by
  unfold separator at h
  split at h
  · cases h
  · split_ifs at h
    all_goals
      cases h
      exact ⟨_, rfl⟩

theorem separator_shorter (h : separator js tokens = .ok (some rest)) : rest.length < tokens.length := by
  obtain ⟨v, rfl, _, _⟩ := separator_some.mp h
  exact Nat.lt_succ_self _

def clauses (js : Runtime) (tokens : List Token) : Except Thrown (List JqlFilter) :=
  match hclause : clause js tokens with
  | .error e => .error e
  | .ok (filter, afterClause) =>
    match hseparator : separator js afterClause with
    | .error e => .error e
    | .ok none => .ok [filter]
    | .ok (some rest) => do
      have : rest.length < tokens.length := (separator_shorter hseparator).trans (clause_shorter hclause)
      let filters ← clauses js rest
      .ok (filter :: filters)
termination_by tokens.length

def parseJql (js : Runtime) (input : String) : Except Thrown (List JqlFilter) :=
  if trim input = "" then .error (bad "empty query.") else clauses js (tokenize input)

theorem clauses_of_error {e : Thrown} (h : clause js tokens = .error e) : clauses js tokens = .error e := by
  rw [clauses]
  split
  · rename_i e' he
    rw [h] at he
    cases he
    rfl
  · rename_i filter afterClause he
    rw [h] at he
    cases he

theorem clauses_of_ok {filter : JqlFilter} (h : clause js tokens = .ok (filter, rest)) :
    clauses js tokens =
      match separator js rest with
      | .error e => .error e
      | .ok none => .ok [filter]
      | .ok (some rest) => clauses js rest >>= fun filters => .ok (filter :: filters) := by
  rw [clauses]
  split
  · rename_i e' he
    rw [h] at he
    cases he
  · rename_i filter' afterClause he
    rw [h] at he
    cases he
    split <;> simp_all

theorem Query.ne_nil {filters : List JqlFilter} (h : Query js tokens filters) : tokens ≠ [] := by
  cases h with
  | single hclause => exact hclause.ne_nil
  | and hclause hand hrest => simp

theorem clauses_cases (js : Runtime) (tokens : List Token) :
    (∃ e, clause js tokens = .error e ∧ clauses js tokens = .error e) ∨
      (∃ message, clauses js tokens = .error (bad message)) ∨
      (∃ filter, Clause js tokens filter ∧ clauses js tokens = .ok [filter]) ∨
      ∃ list filter v rest, tokens = list ++ .word v :: rest ∧ Clause js list filter ∧ js.toLowerCase v = "and" ∧
        clauses js tokens = clauses js rest >>= fun filters => .ok (filter :: filters) := by
  cases hclause : clause js tokens with
  | error e => exact Or.inl ⟨e, rfl, clauses_of_error hclause⟩
  | ok p =>
    obtain ⟨filter, afterClause⟩ := p
    have hclauses := clauses_of_ok hclause
    obtain ⟨list, rfl, hlist⟩ := clause_sound hclause
    cases hseparator : separator js afterClause with
    | error e =>
      obtain ⟨message, rfl⟩ := separator_error hseparator
      rw [hseparator] at hclauses
      exact Or.inr (Or.inl ⟨message, hclauses⟩)
    | ok next =>
      rw [hseparator] at hclauses
      cases next with
      | none =>
        obtain rfl := separator_none.mp hseparator
        rw [List.append_nil] at hclauses ⊢
        exact Or.inr (Or.inr (Or.inl ⟨filter, hlist, hclauses⟩))
      | some rest =>
        obtain ⟨v, rfl, hv, _⟩ := separator_some.mp hseparator
        exact Or.inr (Or.inr (Or.inr ⟨list, filter, v, rest, rfl, hlist, hv, hclauses⟩))

theorem length_lt_append_cons (list : List Token) (tok : Token) (rest : List Token) :
    rest.length < (list ++ tok :: rest).length := by
  rw [List.length_append, List.length_cons]
  omega

theorem clauses_sound {filters : List JqlFilter} (h : clauses js tokens = .ok filters) : Query js tokens filters := by
  induction hn : tokens.length using Nat.strongRecOn generalizing tokens filters with
  | _ n ih =>
    rcases clauses_cases js tokens with
      ⟨e, _, herror⟩ | ⟨message, herror⟩ | ⟨filter, hclause, hok⟩ | ⟨list, filter, v, rest, rfl, hclause, hv, hmore⟩
    · rw [herror] at h
      cases h
    · rw [herror] at h
      cases h
    · rw [hok] at h
      cases h
      exact .single hclause
    · rw [hmore] at h
      obtain ⟨filters', hrest, hfilters⟩ := bind_ok h
      cases hfilters
      have hlt := length_lt_append_cons list (.word v) rest
      exact .and hclause hv (ih _ (hn ▸ hlt) hrest rfl)

theorem clauses_complete {filters : List JqlFilter} (h : Query js tokens filters) :
    clauses js tokens = .ok filters := by
  induction h with
  | single hclause =>
    have hok := clause_complete hclause []
    rw [List.append_nil] at hok
    rw [clauses_of_ok hok]
    rfl
  | and hclause hand hrest ih =>
    rw [clauses_of_ok (clause_complete hclause _), separator_some.mpr ⟨_, rfl, hand, hrest.ne_nil⟩]
    simp only [ih]
    rfl

/-- Clauses that are right, up to one whose field is inherited. -/
inductive Trips (js : Runtime) : List Token → Prop
  | here {tokens : List Token} : Inherited js tokens → Trips js tokens
  | later {tokens rest : List Token} {v : String} {filter : JqlFilter} :
      Clause js tokens filter → js.toLowerCase v = "and" → Trips js rest → Trips js (tokens ++ .word v :: rest)

theorem clauses_error {e : Thrown} (h : clauses js tokens = .error e) :
    (∃ message, e = bad message) ∨ e = inheritedError ∧ Trips js tokens := by
  induction hn : tokens.length using Nat.strongRecOn generalizing tokens with
  | _ n ih =>
    rcases clauses_cases js tokens with
      ⟨e', hclause, herror⟩ | ⟨message, herror⟩ | ⟨filter, _, hok⟩ | ⟨list, filter, v, rest, rfl, hclause, hv, hmore⟩
    · rw [herror] at h
      cases h
      rcases clause_error hclause with hbad | ⟨rfl, hinherited⟩
      · exact Or.inl hbad
      · exact Or.inr ⟨rfl, .here hinherited⟩
    · rw [herror] at h
      cases h
      exact Or.inl ⟨message, rfl⟩
    · rw [hok] at h
      cases h
    · rw [hmore] at h
      rcases bind_error h with hrest | ⟨filters, _, hfilters⟩
      · have hlt := length_lt_append_cons list (.word v) rest
        rcases ih _ (hn ▸ hlt) hrest rfl with hbad | ⟨rfl, htrips⟩
        · exact Or.inl hbad
        · exact Or.inr ⟨rfl, .later hclause hv htrips⟩
      · cases hfilters

theorem Trips.ne_nil (h : Trips js tokens) : tokens ≠ [] := by
  cases h with
  | here hinherited =>
    cases hinherited
    exact List.cons_ne_nil _ _
  | later hclause hand hrest => simp

theorem clauses_trips (h : Trips js tokens) : clauses js tokens = .error inheritedError := by
  induction h with
  | here hinherited => exact clauses_of_error (clause_inherited hinherited)
  | later hclause hand hrest ih =>
    rw [clauses_of_ok (clause_complete hclause _), separator_some.mpr ⟨_, rfl, hand, hrest.ne_nil⟩]
    simp only [ih]
    rfl

theorem parseJql_eq (js : Runtime) (input : String) :
    parseJql js input = clauses js (tokenize input) ∨
      tokenize input = [] ∧ parseJql js input = .error (bad "empty query.") := by
  by_cases hempty : trim input = ""
  · exact Or.inr ⟨tokenize_of_trim hempty, if_pos hempty⟩
  · exact Or.inl (if_neg hempty)

theorem parseJql_eq_ok {input : String} {filters : List JqlFilter} :
    parseJql js input = .ok filters ↔ Query js (tokenize input) filters := by
  rcases parseJql_eq js input with heq | ⟨hnil, herror⟩
  · rw [heq]
    exact ⟨clauses_sound, clauses_complete⟩
  · rw [hnil, herror]
    exact iff_of_false (fun h => by cases h) fun h => h.ne_nil rfl

theorem parseJql_error {input : String} {e : Thrown} (h : parseJql js input = .error e) :
    (∃ message, e = bad message) ∨ e = inheritedError ∧ Trips js (tokenize input) := by
  rcases parseJql_eq js input with heq | ⟨_, herror⟩
  · exact clauses_error (heq ▸ h)
  · rw [herror] at h
    cases h
    exact Or.inl ⟨_, rfl⟩

theorem parseJql_trips {input : String} (h : Trips js (tokenize input)) :
    parseJql js input = .error inheritedError := by
  rcases parseJql_eq js input with heq | ⟨hnil, _⟩
  · rw [heq, clauses_trips h]
  · rw [hnil] at h
    exact absurd rfl h.ne_nil

structure Stored (js : Runtime) (spec : FieldSpec) (value : String) : Prop where
  member : ∀ enumValues, spec.enumValues = some enumValues → value ∈ enumValues
  date : spec.isDate = true → isIsoDate value = true ∧ js.dateIsNaN value = false

structure Documented (js : Runtime) (spec : FieldSpec) (filter : JqlFilter) : Prop where
  field : fields.lookup filter.field = some spec
  op : filter.op ∈ spec.ops
  nonempty : filter.values ≠ []
  single : filter.op ≠ .isIn → filter.values.length = 1
  stored : ∀ value ∈ filter.values, Stored js spec value

theorem dates_have_no_enum : ∀ p ∈ fields, p.2.isDate = true → p.2.enumValues = none := by decide

theorem Accepts.stored {raw value : String} (h : Accepts js spec raw value) (hspec : fields.lookup field = some spec) :
    Stored js spec value where
  member := fun enumValues henum => (h.enum enumValues henum).2
  date := by
    intro hdate
    exact h.date (dates_have_no_enum _ (mem_of_lookup hspec) hdate) hdate

theorem Clause.documented {filter : JqlFilter} (h : Clause js tokens filter) :
    ∃ spec, Documented js spec filter := by
  obtain ⟨hfield, hoperator, hallowed, hvalues⟩ := h
  rename_i v spec op tok list values
  refine ⟨spec, hfield, hallowed, ?_, ?_, ?_⟩
  · cases hvalues with
    | one htok hvalue => exact List.cons_ne_nil _ _
    | list hin => exact hin.values_ne_nil
  · intro hop
    cases hvalues with
    | one htok hvalue => rfl
    | list hin => exact absurd rfl hop
  · intro value hmem
    cases hvalues with
    | one htok hvalue =>
      rw [List.mem_singleton.mp hmem]
      exact hvalue.stored hfield
    | list hin =>
      obtain ⟨raw, hvalue⟩ := hin.accepted value hmem
      exact hvalue.stored hfield

theorem Query.documented {filters : List JqlFilter} (h : Query js tokens filters) :
    filters ≠ [] ∧ ∀ filter ∈ filters, ∃ spec, Documented js spec filter := by
  induction h with
  | single hclause =>
    refine ⟨List.cons_ne_nil _ _, fun filter hmem => ?_⟩
    rw [List.mem_singleton.mp hmem]
    exact hclause.documented
  | and hclause hand hrest ih =>
    refine ⟨List.cons_ne_nil _ _, fun filter hmem => ?_⟩
    rcases List.mem_cons.mp hmem with rfl | htail
    · exact hclause.documented
    · exact ih.2 filter htail

namespace Sample

def ascii : Runtime where
  toLowerCase s := String.ofList (s.toList.map Char.toLower)
  toUpperCase s := String.ofList (s.toList.map Char.toUpper)
  dateIsNaN _ := false

end Sample

def Answers (js : Runtime) (input : String) : Prop :=
  (∃ message, parseJql js input = .error (.http (.badRequest message))) ∨
    ∃ filters, parseJql js input = .ok filters ∧ filters ≠ [] ∧
      ∀ filter ∈ filters, ∃ spec, Documented js spec filter

/-- The parser answers unless, after clauses that are right, it reads an inherited name and an operator. -/
theorem answers_iff (js : Runtime) (input : String) : Answers js input ↔ ¬ Trips js (tokenize input) := by
  constructor
  · rintro hanswers htrips
    have herror := parseJql_trips htrips
    rcases hanswers with ⟨message, hbad⟩ | ⟨filters, hok, _⟩
    · rw [herror] at hbad
      cases hbad
    · rw [herror] at hok
      cases hok
  · intro h
    cases hparse : parseJql js input with
    | error e =>
      rcases parseJql_error hparse with ⟨message, rfl⟩ | ⟨_, htrips⟩
      · exact Or.inl ⟨_, hparse⟩
      · exact absurd htrips h
    | ok filters =>
      exact Or.inr ⟨filters, hparse, (parseJql_eq_ok.mp hparse).documented⟩

theorem constructor_throws_typeError : ¬ Answers Sample.ascii "constructor = x" := by
  have htokens : tokenize "constructor = x" = [.word "constructor", .op .eq, .word "x"] := by decide
  have htrips : Trips Sample.ascii (tokenize "constructor = x") := by
    rw [htokens]
    exact .here (.intro (by decide) (by decide) (.compare .eq))
  rintro (⟨message, hbad⟩ | ⟨filters, hok, _⟩)
  · rw [parseJql_trips htrips] at hbad
    cases hbad
  · rw [parseJql_trips htrips] at hok
    cases hok

def InGrammar (js : Runtime) (s : List Char) : Prop := ∃ lexemes filters, Lexed s lexemes ∧ Query js lexemes filters

theorem inGrammar_iff {s : List Char} :
    InGrammar js s ↔ s.count '"' % 2 = 0 ∧ ∃ filters, Query js (scan lexeme s) filters := by
  constructor
  · rintro ⟨lexemes, filters, hlexed, hquery⟩
    obtain ⟨heven, rfl⟩ := lexed_iff.mp hlexed
    exact ⟨heven, filters, hquery⟩
  · rintro ⟨heven, filters, hquery⟩
    exact ⟨_, filters, lexed_iff.mpr ⟨heven, rfl⟩, hquery⟩

/-- The parser accepts the grammar and, besides it, the texts whose last, unclosed quote could be a space. -/
theorem accepts_iff_grammar (js : Runtime) (input : String) :
    ((∃ filters, parseJql js input = .ok filters) ↔ InGrammar js input.toList) ↔
      ¬ (input.toList.count '"' % 2 = 1 ∧ InGrammar js (blankLastQuote input.toList)) := by
  have hok : (∃ filters, parseJql js input = .ok filters) ↔
      ∃ filters, Query js (scan lexeme input.toList) filters := exists_congr fun filters => parseJql_eq_ok
  rw [hok, inGrammar_iff]
  rcases Nat.mod_two_eq_zero_or_one (input.toList.count '"') with heven | hodd
  · simp [heven]
  · have hcount := count_blankLastQuote (List.count_pos_iff.mp (show 0 < input.toList.count '"' by omega))
    have hblank : (blankLastQuote input.toList).count '"' % 2 = 0 := by omega
    rw [inGrammar_iff, scan_blankLastQuote hodd]
    simp [hodd, hblank]

theorem unclosed_quote_ignored :
    ¬ ((∃ filters, parseJql Sample.ascii "status = NEW \"" = .ok filters) ↔
      InGrammar Sample.ascii "status = NEW \"".toList) := by
  have htokens : tokenize "status = NEW \"" = [.word "status", .op .eq, .word "NEW"] := by decide
  have hclause : clause Sample.ascii [.word "status", .op .eq, .word "NEW"] =
      .ok (⟨"status", .compare .eq, ["NEW"]⟩, []) := rfl
  have hok : parseJql Sample.ascii "status = NEW \"" = .ok [⟨"status", .compare .eq, ["NEW"]⟩] := by
    rw [parseJql_eq_ok, htokens]
    apply clauses_sound
    rw [clauses_of_ok hclause]
    rfl
  intro h
  have hgrammar := inGrammar_iff.mp (h.mp ⟨_, hok⟩)
  exact absurd hgrammar.1 (by decide)

end Cimp.Jql
