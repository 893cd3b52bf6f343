import Cimp.Lib.Json

namespace Cimp.Json

open Utf16 Escapes

def digits : Text := units "0123456789"

def isDigit (u : UInt16) : Bool := digits.contains u

def exponent : Text → Bool
  | [] => true
  | e :: s =>
    let power := if s.head? = some 0x2B ∨ s.head? = some 0x2D then s.tail else s
    (e == 0x65 || e == 0x45) && !power.isEmpty && power.all isDigit

def fraction (s : Text) : Bool :=
  if s.head? = some 0x2E then !(s.tail.takeWhile isDigit).isEmpty && exponent (s.tail.dropWhile isDigit)
  else exponent s

def numberLiteral (s : Text) : Bool :=
  let s := if s.head? = some 0x2D then s.tail else s
  let whole := s.takeWhile isDigit
  !whole.isEmpty && (whole.head? ≠ some 0x30 || whole.length == 1) && fraction (s.dropWhile isDigit)

/-- The number type, how a literal is read and how a number is printed (`none` where it is not finite). -/
structure NumberFormat where
  Number : Type
  ofLiteral : Text → Number
  toText : Number → Option Text

/-- What a number prints is a literal, and the number it denotes prints the same. -/
structure NumberFormat.Documented (numbers : NumberFormat) : Prop where
  literal : ∀ x s, numbers.toText x = some s → numberLiteral s = true
  reads : ∀ x s, numbers.toText x = some s → numbers.toText (numbers.ofLiteral s) = some s

inductive Token (ν : Type)
  | beginArray | endArray | beginObject | endObject | colon | comma
  | str (s : Text)
  | literal (v : Value ν)

variable (numbers : NumberFormat)

abbrev NumberFormat.Value : Type := Json.Value numbers.Number

abbrev NumberFormat.Token : Type := Json.Token numbers.Number

def space (u : UInt16) : Bool := u == 0x20 || u == 0x09 || u == 0x0A || u == 0x0D

def punctuation {ν : Type} (u : UInt16) : Option (Token ν) :=
  if u = 0x5B then some .beginArray
  else if u = 0x5D then some .endArray
  else if u = 0x7B then some .beginObject
  else if u = 0x7D then some .endObject
  else if u = 0x3A then some .colon
  else if u = 0x2C then some .comma
  else none

def quote : UInt16 := 0x22

def backslash : UInt16 := 0x5C

def word (w : Text) : Option numbers.Token :=
  if w = units "null" then some (.literal .null)
  else if w = units "true" then some (.literal (.bool true))
  else if w = units "false" then some (.literal (.bool false))
  else if numberLiteral w then some (.literal (.num (numbers.ofLiteral w)))
  else none

def unescape (u : UInt16) : Option UInt16 :=
  if u = quote ∨ u = backslash ∨ u = 0x2F then some u
  else if u = 0x62 then some 0x08
  else if u = 0x66 then some 0x0C
  else if u = 0x6E then some 0x0A
  else if u = 0x72 then some 0x0D
  else if u = 0x74 then some 0x09
  else none

/-- `hex s k n` has `k` digits of an escape to come and `n` from those before. -/
inductive Mode
  | blank
  | word (w : Text)
  | string (s : Text)
  | escape (s : Text)
  | hex (s : Text) (k n : ℕ)

def lex : Mode → Text → Option (List numbers.Token)
  | .blank, [] => some []
  | .word w, [] => (word numbers w).map fun t => [t]
  | .string _, [] | .escape _, [] | .hex _ _ _, [] => none
  | .blank, u :: us =>
    if space u then lex .blank us
    else if u = quote then lex (.string []) us
    else match punctuation u with
      | some t => (lex .blank us).map (t :: ·)
      | none => lex (.word [u]) us
  | .word w, u :: us =>
    if space u then (word numbers w).bind fun t => (lex .blank us).map (t :: ·)
    else if u = quote then (word numbers w).bind fun t => (lex (.string []) us).map (t :: ·)
    else match punctuation u with
      | some p => (word numbers w).bind fun t => (lex .blank us).map fun ts => t :: p :: ts
      | none => lex (.word (w ++ [u])) us
  | .string s, u :: us =>
    if u = quote then (lex .blank us).map (.str s :: ·)
    else if u = backslash then lex (.escape s) us
    else if u < 0x20 then none
    else lex (.string (s ++ [u])) us
  | .escape s, u :: us =>
    if u = 0x75 then lex (.hex s 4 0) us
    else (unescape u).bind fun v => lex (.string (s ++ [v])) us
  | .hex s k n, u :: us =>
    (hexValue u).bind fun d =>
      if k ≤ 1 then lex (.string (s ++ [UInt16.ofNat (n * 16 + d)])) us
      else lex (.hex s (k - 1) (n * 16 + d)) us

section Lexer

variable {numbers} {s w : Text} {u : UInt16} {us : Text} {k n : ℕ}

theorem lex_blank_cons : lex numbers .blank (u :: us) =
    if space u then lex numbers .blank us
    else if u = quote then lex numbers (.string []) us
    else match punctuation u with
      | some t => (lex numbers .blank us).map (t :: ·)
      | none => lex numbers (.word [u]) us := rfl

theorem lex_word_nil : lex numbers (.word w) [] = (word numbers w).map fun t => [t] := rfl

theorem lex_word_cons : lex numbers (.word w) (u :: us) =
    if space u then (word numbers w).bind fun t => (lex numbers .blank us).map (t :: ·)
    else if u = quote then (word numbers w).bind fun t => (lex numbers (.string []) us).map (t :: ·)
    else match punctuation u with
      | some p => (word numbers w).bind fun t => (lex numbers .blank us).map fun ts => t :: p :: ts
      | none => lex numbers (.word (w ++ [u])) us := rfl

theorem lex_string_cons : lex numbers (.string s) (u :: us) =
    if u = quote then (lex numbers .blank us).map (.str s :: ·)
    else if u = backslash then lex numbers (.escape s) us
    else if u < 0x20 then none
    else lex numbers (.string (s ++ [u])) us := rfl

theorem lex_escape_cons : lex numbers (.escape s) (u :: us) =
    if u = 0x75 then lex numbers (.hex s 4 0) us
    else (unescape u).bind fun v => lex numbers (.string (s ++ [v])) us := rfl

theorem lex_hex_cons : lex numbers (.hex s k n) (u :: us) =
    (hexValue u).bind fun d =>
      if k ≤ 1 then lex numbers (.string (s ++ [UInt16.ofNat (n * 16 + d)])) us
      else lex numbers (.hex s (k - 1) (n * 16 + d)) us := rfl

end Lexer

section Reader

variable {ν : Type}

inductive Frame (ν : Type)
  | arr (items : List (Value ν))
  | obj (fields : Fields ν) (k : Text)

inductive Reader (ν : Type)
  | value (stack : List (Frame ν))
  | first (stack : List (Frame ν))
  | firstKey (stack : List (Frame ν))
  | key (fields : Fields ν) (stack : List (Frame ν))
  | colon (fields : Fields ν) (k : Text) (stack : List (Frame ν))
  | after (v : Value ν) (stack : List (Frame ν))

def start (stack : List (Frame ν)) : Token ν → Option (Reader ν)
  | .literal v => some (.after v stack)
  | .str s => some (.after (.str s) stack)
  | .beginArray => some (.first stack)
  | .beginObject => some (.firstKey stack)
  | .endArray | .endObject | .colon | .comma => none

def step : Reader ν → Token ν → Option (Reader ν)
  | .value stack, t => start stack t
  | .first stack, .endArray => some (.after (.arr []) stack)
  | .first stack, t => start (.arr [] :: stack) t
  | .firstKey stack, .endObject => some (.after (.obj []) stack)
  | .firstKey stack, .str k => some (.colon [] k stack)
  | .key fields stack, .str k => some (.colon fields k stack)
  | .colon fields k stack, .colon => some (.value (.obj fields k :: stack))
  | .after v (.arr items :: stack), .comma => some (.value (.arr (items ++ [v]) :: stack))
  | .after v (.arr items :: stack), .endArray => some (.after (.arr (items ++ [v])) stack)
  | .after v (.obj fields k :: stack), .comma => some (.key (assign fields (k, v)) stack)
  | .after v (.obj fields k :: stack), .endObject => some (.after (.obj (assign fields (k, v))) stack)
  | _, _ => none

def run : Reader ν → List (Token ν) → Option (Reader ν)
  | r, [] => some r
  | r, t :: ts => (step r t).bind fun r => run r ts

def finish : Reader ν → Option (Value ν)
  | .after v [] => some v
  | _ => none

end Reader

/-- `JSON.parse`, `none` where it throws. -/
def parse (text : Text) : Option numbers.Value := do
  let ts ← lex numbers .blank text
  let r ← run (.value []) ts
  finish r

def unicodeEscape (u : UInt16) : Text :=
  [backslash, 0x75, hexDigit 0x61 (u.toNat / 4096), hexDigit 0x61 (u.toNat / 256 % 16),
    hexDigit 0x61 (u.toNat / 16 % 16), hexDigit 0x61 (u.toNat % 16)]

def escapeUnit (u : UInt16) : Text :=
  if u = 0x08 then [backslash, 0x62]
  else if u = 0x09 then [backslash, 0x74]
  else if u = 0x0A then [backslash, 0x6E]
  else if u = 0x0C then [backslash, 0x66]
  else if u = 0x0D then [backslash, 0x72]
  else if u = quote then [backslash, quote]
  else if u = backslash then [backslash, backslash]
  else if u < 0x20 then unicodeEscape u
  else [u]

def escapeText : Text → Text
  | [] => []
  | u :: us =>
    if High u then
      match us with
      | [] => unicodeEscape u
      | v :: rest => if Low v then u :: v :: escapeText rest else unicodeEscape u ++ escapeText (v :: rest)
    else if Low u then unicodeEscape u ++ escapeText us
    else escapeUnit u ++ escapeText us

def quoted (s : Text) : Text := quote :: (escapeText s ++ [quote])

mutual

def stringify : numbers.Value → Text
  | .null => units "null"
  | .bool b => if b then units "true" else units "false"
  | .num x => (numbers.toText x).getD (units "null")
  | .str s => quoted s
  | .arr items => units "[" ++ ((units ",").intercalate (stringifyItems items) ++ units "]")
  | .obj fields => units "\x7b" ++ ((units ",").intercalate (stringifyFields fields) ++ units "\x7d")

def stringifyItems : List numbers.Value → List Text
  | [] => []
  | v :: vs => stringify v :: stringifyItems vs

def stringifyFields : List (Text × numbers.Value) → List Text
  | [] => []
  | (k, v) :: fields => (quoted k ++ (units ":" ++ stringify v)) :: stringifyFields fields

end

end Cimp.Json
