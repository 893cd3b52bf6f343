import Cimp.Common
import Cimp.Lib.Hosts
import Mathlib.Data.Bool.AllAny

namespace Cimp.WebhooksService

open Hosts

abbrev Text := List Char

def withoutDot (name : Text) : Text := if name.getLast? = some '.' then name.dropLast else name

def lastLabel (name : Text) : Text := ((withoutDot name).reverse.takeWhile (· ≠ '.')).reverse

def hexDigits : Text := "0123456789abcdef".toList

/-- A host whose last label is a number is read as an IPv4 address or not at all. -/
def numberLabel (label : Text) : Bool :=
  !label.isEmpty && label.all Char.isDigit || label.take 2 == "0x".toList && (label.drop 2).all (hexDigits.contains ·)

/-- What the URL parser leaves of a DNS name. -/
structure DomainName where
  text : Text
  nonempty : text ≠ []
  ascii : ∀ c ∈ text, 0x20 < c.toNat ∧ c.toNat < 0x7f
  lower : ∀ c ∈ text, c.isUpper = false
  allowed : ∀ c ∈ text, c ∉ "#/:<>?@[\\]^|%".toList
  notNumber : numberLabel (lastLabel text) = false

/-- `other` is an opaque or empty host. -/
inductive Host
  | domain (name : DomainName)
  | ipv4 (address : UInt32)
  | ipv6 (text : Text) (colon : ':' ∈ text)
  | other (text : Text)

def Host.hostname : Host → Text
  | .domain name => name.text
  | .ipv4 address => dotted address
  | .ipv6 text _ => '[' :: (text ++ [']'])
  | .other text => text

structure Url where
  protocol : String
  host : Host
  special : protocol = "https:" → ∀ text, host ≠ .other text

def unbracketed (host : Text) : Text :=
  let host := if host.head? = some '[' then host.tail else host
  if host.getLast? = some ']' then host.dropLast else host

def digit : Text := "0123456789".toList

/-- `^first\.(q|…)\.` for the alternatives `q`. -/
def inRange (first : String) (second : List Pattern) (host : Text) : Bool :=
  second.any fun q => starts (literal first ++ ['.'] :: (q ++ [['.']])) host

def privatePrefix (host : Text) : Bool :=
  starts (literal "127" ++ [['.']]) host
    || starts (literal "10" ++ [['.']]) host
    || inRange "192" [literal "168"] host
    || inRange "172" [["1".toList, "6789".toList], ["2".toList, digit], ["3".toList, "01".toList]] host
    || inRange "169" [literal "254"] host
    || inRange "100"
        [["6".toList, "456789".toList], ["789".toList, digit], ["1".toList, "01".toList, digit],
          ["1".toList, "2".toList, "01234567".toList]] host

def isPrivate (host : Text) : Bool :=
  host == "localhost".toList
    || ".localhost".toList.isSuffixOf host
    || host == "0.0.0.0".toList
    || privatePrefix host

/-- `parse` is `new URL`, `none` where it throws. -/
def assertSafeUrl (parse : String → Option Url) (url : String) : Except HttpException Unit :=
  match parse url with
  | none => .error (.badRequest "Invalid webhook URL.")
  | some parsed =>
    if parsed.protocol ≠ "https:" then .error (.badRequest "Webhook URLs must use https.")
    else
      let host := unbracketed (parsed.host.hostname.map Char.toLower)
      if ':' ∈ host then
        .error (.badRequest
          "Webhook URLs must use a DNS hostname or public IPv4 address (IPv6 literals are not supported).")
      else if isPrivate host then
        .error (.badRequest "Webhook URLs must not target private or loopback addresses.")
      else .ok ()

def privateBlocks : List Block :=
  [⟨address 127 0 0 0, 8⟩, ⟨address 10 0 0 0, 8⟩, ⟨address 192 168 0 0, 16⟩, ⟨address 172 16 0 0, 12⟩,
    ⟨address 169 254 0 0, 16⟩, ⟨address 100 64 0 0, 10⟩, ⟨address 0 0 0 0, 32⟩]

/-- `localhost` or a name under it, one trailing dot ignored. -/
def Localhost (name : Text) : Prop :=
  withoutDot name = "localhost".toList ∨ ".localhost".toList <:+ withoutDot name

def Public : Host → Prop
  | .domain name => ¬ Localhost name.text
  | .ipv4 address => ∀ block ∈ privateBlocks, ¬ block.Contains address
  | .ipv6 _ _ | .other _ => False

def Safe (parse : String → Option Url) (url : String) : Prop :=
  ∃ parsed, parse url = some parsed ∧ parsed.protocol = "https:" ∧ Public parsed.host

/-- The text tests of the code say of a DNS name what its meaning says. -/
def ReadAsMeant (name : Text) : Prop :=
  name = "localhost".toList ∨ ".localhost".toList <:+ name ∨ (privatePrefix name = true ↔ Localhost name)

variable {parse : String → Option Url} {url : String} {a : UInt32} {name : DomainName} {host : Text}

theorem unbracketed_of_notMem (hopen : '[' ∉ host) (hclose : ']' ∉ host) : unbracketed host = host := by
  have hhead : host.head? ≠ some '[' := fun h => hopen (List.mem_of_head? h)
  have hlast : host.getLast? ≠ some ']' := fun h => hclose (List.mem_of_getLast? h)
  simp only [unbracketed, if_neg hhead, if_neg hlast]

theorem unbracketed_bracketed (text : Text) : unbracketed ('[' :: (text ++ [']'])) = text := by
  simp [unbracketed]

theorem toLower_of_not_upper {c : Char} (h : c.isUpper = false) : c.toLower = c := by
  have hupper : ¬ (c.val ≥ 'A'.val ∧ c.val ≤ 'Z'.val) := of_decide_eq_false h
  exact dif_neg hupper

theorem map_toLower (h : ∀ c ∈ host, c.isUpper = false) : host.map Char.toLower = host := by
  rw [List.map_congr_left (fun c hc => toLower_of_not_upper (h c hc))]
  exact List.map_id host

theorem dotted_plain {c : Char} (h : c ∈ dotted a) : c.isUpper = false ∧ c ≠ '[' ∧ c ≠ ']' ∧ c ≠ ':' ∧ c ≠ 'l' := by
  cases mem_dotted h with
  | inl hdigit =>
    refine ⟨?_, ?_, ?_, ?_, ?_⟩
    · have hnine : c.val ≤ '9'.val := of_decide_eq_true (Bool.and_eq_true_iff.mp hdigit).2
      have hbound : ¬ 'A'.val ≤ c.val := UInt32.not_le.mpr (UInt32.lt_of_le_of_lt hnine (by decide))
      exact decide_eq_false fun hupper => hbound hupper.1
    all_goals
      rintro rfl
      exact absurd hdigit (by decide)
  | inr hdot =>
    subst hdot
    decide

theorem seen_domain (name : DomainName) : unbracketed ((Host.domain name).hostname.map Char.toLower) = name.text := by
  rw [Host.hostname, map_toLower name.lower]
  apply unbracketed_of_notMem
  · exact fun h => name.allowed _ h (by decide)
  · exact fun h => name.allowed _ h (by decide)

theorem seen_ipv4 (a : UInt32) : unbracketed ((Host.ipv4 a).hostname.map Char.toLower) = dotted a := by
  rw [Host.hostname, map_toLower fun c hc => (dotted_plain hc).1]
  apply unbracketed_of_notMem
  · exact fun h => (dotted_plain h).2.1 rfl
  · exact fun h => (dotted_plain h).2.2.1 rfl

theorem seen_ipv6 {text : Text} (colon : ':' ∈ text) :
    ':' ∈ unbracketed ((Host.ipv6 text colon).hostname.map Char.toLower) := by
  have hmap : ('[' :: (text ++ [']'])).map Char.toLower = '[' :: (text.map Char.toLower ++ [']']) := by
    rw [List.map_cons, List.map_append]
    rfl
  rw [Host.hostname, hmap, unbracketed_bracketed]
  exact List.mem_map.mpr ⟨':', colon, rfl⟩

theorem starts_first {text : String} {m : ℕ} (h : text.toList = decimal m) (hdot : ∀ cs ∈ literal text, '.' ∉ cs) :
    starts (literal text ++ [['.']]) (dotted a) = decide (octet a 0 = m) := by
  rw [starts_dotted_first hdot, fits_decimal h]

theorem inRange_dotted {first : String} {m : ℕ} {second : List Pattern} (h : first.toList = decimal m)
    (hdot : ∀ cs ∈ literal first, '.' ∉ cs) (hsecond : ∀ q ∈ second, ∀ cs ∈ q, '.' ∉ cs) :
    inRange first second (dotted a) =
      (decide (octet a 0 = m) && second.any fun q => fits q (decimal (octet a 1))) := by
  rw [inRange, Bool.eq_iff_iff]
  simp only [List.any_eq_true, Bool.and_eq_true]
  constructor
  · rintro ⟨q, hq, hstarts⟩
    rw [starts_dotted_second hdot (hsecond q hq), fits_decimal h, Bool.and_eq_true] at hstarts
    exact ⟨hstarts.1, q, hq, hstarts.2⟩
  · rintro ⟨hfirst, q, hq, hfits⟩
    refine ⟨q, hq, ?_⟩
    rw [starts_dotted_second hdot (hsecond q hq), fits_decimal h, hfirst, hfits]
    rfl

theorem any_single {text : String} {m : ℕ} (h : text.toList = decimal m) (n : ℕ) :
    ([literal text].any fun q => fits q (decimal n)) = decide (n = m) := by
  rw [List.any_cons, List.any_nil, Bool.or_false, fits_decimal h]

theorem sixteen_to_thirtyOne : ∀ n < 256,
    ([["1".toList, "6789".toList], ["2".toList, digit], ["3".toList, "01".toList]].any fun q => fits q (decimal n)) =
      decide (16 ≤ n ∧ n ≤ 31) := by
  decide +kernel

theorem sixtyFour_to_127 : ∀ n < 256,
    ([["6".toList, "456789".toList], ["789".toList, digit], ["1".toList, "01".toList, digit],
      ["1".toList, "2".toList, "01234567".toList]].any fun q => fits q (decimal n)) = decide (64 ≤ n ∧ n ≤ 127) := by
  decide +kernel

theorem privatePrefix_dotted : privatePrefix (dotted a) = true ↔
    octet a 0 = 127 ∨ octet a 0 = 10 ∨ octet a 0 = 192 ∧ octet a 1 = 168 ∨
      octet a 0 = 172 ∧ 16 ≤ octet a 1 ∧ octet a 1 ≤ 31 ∨ octet a 0 = 169 ∧ octet a 1 = 254 ∨
      octet a 0 = 100 ∧ 64 ≤ octet a 1 ∧ octet a 1 ≤ 127 := by
  rw [privatePrefix, starts_first (m := 127) rfl (by decide), starts_first (m := 10) rfl (by decide),
    inRange_dotted (m := 192) rfl (by decide) (by decide), inRange_dotted (m := 172) rfl (by decide) (by decide),
    inRange_dotted (m := 169) rfl (by decide) (by decide), inRange_dotted (m := 100) rfl (by decide) (by decide),
    any_single (m := 168) rfl, any_single (m := 254) rfl, sixteen_to_thirtyOne _ (octet_lt a 1),
    sixtyFour_to_127 _ (octet_lt a 1)]
  simp only [Bool.or_eq_true, Bool.and_eq_true, decide_eq_true_iff, or_assoc]

theorem contains_octet (m : ℕ) (hm : m < 256) : Block.Contains ⟨address m 0 0 0, 8⟩ a ↔ octet a 0 = m := by
  have ha := a.toNat_lt
  rw [Block.Contains, toNat_address hm (by omega) (by omega) (by omega)]
  simp only [octet, Nat.reduceSub, Nat.reduceMul, Nat.reducePow]
  omega

theorem contains_two (m n : ℕ) (hm : m < 256) (hn : n < 256) :
    Block.Contains ⟨address m n 0 0, 16⟩ a ↔ octet a 0 = m ∧ octet a 1 = n := by
  have ha := a.toNat_lt
  rw [Block.Contains, toNat_address hm hn (by omega) (by omega)]
  simp only [octet, Nat.reduceSub, Nat.reduceMul, Nat.reducePow]
  omega

theorem contains_172 :
    Block.Contains ⟨address 172 16 0 0, 12⟩ a ↔ octet a 0 = 172 ∧ 16 ≤ octet a 1 ∧ octet a 1 ≤ 31 := by
  have ha := a.toNat_lt
  rw [Block.Contains, toNat_address (by omega) (by omega) (by omega) (by omega)]
  simp only [octet, Nat.reduceSub, Nat.reduceMul, Nat.reducePow]
  omega

theorem contains_100 :
    Block.Contains ⟨address 100 64 0 0, 10⟩ a ↔ octet a 0 = 100 ∧ 64 ≤ octet a 1 ∧ octet a 1 ≤ 127 := by
  have ha := a.toNat_lt
  rw [Block.Contains, toNat_address (by omega) (by omega) (by omega) (by omega)]
  simp only [octet, Nat.reduceSub, Nat.reduceMul, Nat.reducePow]
  omega

theorem contains_zero : Block.Contains ⟨address 0 0 0 0, 32⟩ a ↔ a = 0 := by
  rw [Block.Contains, toNat_address (by omega) (by omega) (by omega) (by omega), ← UInt32.toNat_inj]
  simp

theorem blocks_octets : (∃ block ∈ privateBlocks, block.Contains a) ↔
    octet a 0 = 127 ∨ octet a 0 = 10 ∨ octet a 0 = 192 ∧ octet a 1 = 168 ∨
      octet a 0 = 172 ∧ 16 ≤ octet a 1 ∧ octet a 1 ≤ 31 ∨ octet a 0 = 169 ∧ octet a 1 = 254 ∨
      octet a 0 = 100 ∧ 64 ≤ octet a 1 ∧ octet a 1 ≤ 127 ∨ a = 0 := by
  simp only [privateBlocks, List.mem_cons, List.not_mem_nil, or_false, exists_eq_or_imp, exists_eq_left]
  rw [contains_octet 127 (by omega), contains_octet 10 (by omega), contains_two 192 168 (by omega) (by omega),
    contains_172, contains_two 169 254 (by omega) (by omega), contains_100, contains_zero]

theorem isPrivate_dotted (a : UInt32) : isPrivate (dotted a) = true ↔ ∃ block ∈ privateBlocks, block.Contains a := by
  have hl : 'l' ∉ dotted a := fun h => (dotted_plain h).2.2.2.2 rfl
  have hlocal : dotted a ≠ "localhost".toList := fun h => hl (by rw [h]; decide)
  have hunder : ¬ ".localhost".toList <:+ dotted a := fun h => hl (h.mem (by decide))
  rw [blocks_octets, ← dotted_zero, isPrivate]
  simp only [Bool.or_eq_true, beq_iff_eq, List.isSuffixOf_iff_suffix, hlocal, hunder, false_or, privatePrefix_dotted]
  rw [or_comm]
  simp only [or_assoc]

theorem withoutDot_suffix {text : Text} {suffix : Text} (h : suffix <:+ text) (hne : suffix ≠ [])
    (hdot : suffix.getLast? ≠ some '.') : withoutDot text = text := by
  obtain ⟨front, rfl⟩ := h
  rw [withoutDot, if_neg]
  rwa [List.getLast?_append_of_ne_nil _ hne]

theorem localhost_of_plain {text : Text} (h : text = "localhost".toList ∨ ".localhost".toList <:+ text) :
    Localhost text := by
  cases h with
  | inl heq =>
    subst heq
    exact .inl (by decide)
  | inr hunder => exact .inr (by rwa [withoutDot_suffix hunder (by decide) (by decide)])

theorem name_ne_zero (name : DomainName) : name.text ≠ "0.0.0.0".toList := by
  intro h
  have hnumber := name.notNumber
  rw [h] at hnumber
  exact absurd hnumber (by decide)

theorem isPrivate_name (name : DomainName) : isPrivate name.text = true ↔
    (name.text = "localhost".toList ∨ ".localhost".toList <:+ name.text) ∨ privatePrefix name.text = true := by
  rw [isPrivate]
  simp only [Bool.or_eq_true, beq_iff_eq, List.isSuffixOf_iff_suffix, name_ne_zero name, or_false]

theorem name_colon (name : DomainName) : ':' ∉ name.text := fun h => name.allowed _ h (by decide)

theorem assertSafeUrl_ok {parsed : Url} (hparse : parse url = some parsed) (hhttps : parsed.protocol = "https:") :
    assertSafeUrl parse url = .ok () ↔
      ':' ∉ unbracketed (parsed.host.hostname.map Char.toLower) ∧
        isPrivate (unbracketed (parsed.host.hostname.map Char.toLower)) = false := by
  simp only [assertSafeUrl, hparse, hhttps, ne_eq, not_true_eq_false, if_false]
  split_ifs with hcolon hprivate
  · simp [hcolon]
  · simp [hprivate]
  · simp [hcolon, hprivate]

theorem safe_iff {parsed : Url} (hparse : parse url = some parsed) (hhttps : parsed.protocol = "https:") :
    Safe parse url ↔ Public parsed.host := by
  constructor
  · rintro ⟨other, hother, -, hpublic⟩
    rw [hparse, Option.some_inj] at hother
    rwa [hother]
  · exact fun h => ⟨parsed, hparse, hhttps, h⟩

theorem assertSafeUrl_name {parsed : Url} (hparse : parse url = some parsed) (hhttps : parsed.protocol = "https:")
    (hhost : parsed.host = .domain name) :
    (assertSafeUrl parse url = .ok () ↔ Safe parse url) ↔ ReadAsMeant name.text := by
  have hcases : ∀ p q r l : Prop, (p ∨ q → l) → ((¬ ((p ∨ q) ∨ r) ↔ ¬ l) ↔ p ∨ q ∨ (r ↔ l)) := by
    intro p q r l h
    rw [not_iff_not, ← or_assoc]
    by_cases hplain : p ∨ q
    · exact iff_of_true (iff_of_true (.inl hplain) (h hplain)) (.inl hplain)
    · rw [or_iff_right hplain, or_iff_right hplain]
  rw [assertSafeUrl_ok hparse hhttps, safe_iff hparse hhttps, hhost, seen_domain, Public, ReadAsMeant,
    ← Bool.not_eq_true, isPrivate_name, and_iff_right (name_colon name)]
  exact hcases _ _ _ _ localhost_of_plain

theorem assertSafeUrl_ipv4 {parsed : Url} (hparse : parse url = some parsed) (hhttps : parsed.protocol = "https:")
    (hhost : parsed.host = .ipv4 a) : assertSafeUrl parse url = .ok () ↔ Safe parse url := by
  have hcolon : ':' ∉ dotted a := fun h => (dotted_plain h).2.2.2.1 rfl
  rw [assertSafeUrl_ok hparse hhttps, safe_iff hparse hhttps, hhost, seen_ipv4, Public, ← Bool.not_eq_true,
    isPrivate_dotted]
  simp [hcolon]

theorem assertSafeUrl_ipv6 {parsed : Url} {text : Text} {colon : ':' ∈ text} (hparse : parse url = some parsed)
    (hhttps : parsed.protocol = "https:") (hhost : parsed.host = .ipv6 text colon) :
    assertSafeUrl parse url = .ok () ↔ Safe parse url := by
  rw [assertSafeUrl_ok hparse hhttps, safe_iff hparse hhttps, hhost, Public]
  simp [seen_ipv6 colon]

/-- The guard is exact for every URL whose host is no DNS name that it misreads. -/
theorem assertSafeUrl_exact_iff (parse : String → Option Url) (url : String) :
    (assertSafeUrl parse url = .ok () ↔ Safe parse url) ↔
      ∀ parsed name, parse url = some parsed → parsed.protocol = "https:" → parsed.host = .domain name →
        ReadAsMeant name.text := by
  constructor
  · intro h parsed name hparse hhttps hhost
    exact (assertSafeUrl_name hparse hhttps hhost).mp h
  · intro h
    cases hparse : parse url with
    | none => simp [assertSafeUrl, Safe, hparse]
    | some parsed =>
      by_cases hhttps : parsed.protocol = "https:"
      · cases hhost : parsed.host with
        | domain name => exact (assertSafeUrl_name hparse hhttps hhost).mpr (h parsed name hparse hhttps hhost)
        | ipv4 a => exact assertSafeUrl_ipv4 hparse hhttps hhost
        | ipv6 text colon => exact assertSafeUrl_ipv6 hparse hhttps hhost
        | other text => exact absurd hhost (parsed.special hhttps text)
      · simp [assertSafeUrl, Safe, hparse, hhttps]

namespace Sample

def localhostDot : DomainName := ⟨"localhost.".toList, by decide, List.all_iff_forall_prop.mp (by decide),
    List.all_iff_forall_prop.mp (by decide), List.all_iff_forall_prop.mp (by decide), by decide⟩

def newUrl (url : String) : Option Url :=
  if url = "https://localhost./hook" then some ⟨"https:", .domain localhostDot, fun _ _ => by simp⟩ else none

end Sample

theorem localhostDot_accepted :
    ¬ ∀ parse url, assertSafeUrl parse url = .ok () ↔ Safe parse url := by
  intro h
  have hsafe := (h Sample.newUrl "https://localhost./hook").mp (by decide)
  obtain ⟨parsed, hparse, -, hpublic⟩ := hsafe
  rw [Sample.newUrl, if_pos rfl, Option.some_inj] at hparse
  rw [← hparse] at hpublic
  exact hpublic (.inl (by decide))

end Cimp.WebhooksService
