import Cimp.Lib.Escapes
import Cimp.Lib.Utf16
import Mathlib.Data.Bool.AllAny

namespace Cimp.ContentDisposition

open Escapes Utf16

abbrev Text := List UInt16

def asciiName (filename : Text) : Text :=
  (filename.map fun u => if 0x20 ≤ u ∧ u ≤ 0x7e then u else 0x5f).map fun u => if u = 0x22 ∨ u = 0x5c then 0x5f else u

def unescapedSet : List Char :=
  "ABCDEFGHIJKLMNOPQRSTUVWXYZabcdefghijklmnopqrstuvwxyz0123456789_-.!~*'()".toList

def encodeChar (c : Char) : Text :=
  if c ∈ unescapedSet then Utf16.encodeChar c else (String.utf8EncodeChar c).flatMap triplet

/-- `none` where it throws, at an unpaired surrogate. -/
def encodeURIComponent (s : Text) : Option Text := (decode s).map fun cs => cs.flatMap encodeChar

def contentDisposition (filename : Text) : Option Text := do
  let ascii := asciiName filename
  let encoded ← encodeURIComponent filename
  some (units "attachment; filename=\"" ++ ascii ++ units "\"; filename*=UTF-8''" ++ encoded)

def AttrChar (u : UInt16) : Prop :=
  u ∈ units "ABCDEFGHIJKLMNOPQRSTUVWXYZabcdefghijklmnopqrstuvwxyz0123456789!#$&+-.^_`|~"

instance (u : UInt16) : Decidable (AttrChar u) := inferInstanceAs (Decidable (u ∈ _))

def Printable (u : UInt16) : Prop := 0x20 ≤ u ∧ u ≤ 0x7e

instance (u : UInt16) : Decidable (Printable u) := inferInstanceAs (Decidable (_ ∧ _))

structure QuotedName (filename ascii : Text) : Prop where
  printable : ∀ u ∈ ascii, Printable u ∧ u ≠ 0x22 ∧ u ≠ 0x5c
  length : ascii.length = filename.length

structure ExtendedName (filename : String) (value : Text) : Prop where
  escaped : Escaped AttrChar value
  decodes : ∃ bytes, percentDecode value = some bytes ∧ String.fromUTF8? bytes.toByteArray = some filename

def WellFormedFor (filename : String) (header : Text) : Prop :=
  (∀ u ∈ header, Printable u) ∧
    ∃ ascii value, header = units "attachment; filename=\"" ++ ascii ++ units "\"; filename*=UTF-8''" ++ value ∧
      QuotedName (units filename) ascii ∧ ExtendedName filename value

def delimiters : List Char := "*'()".toList

variable {filename : String} {c : Char} {cs : List Char}

theorem asciiName_quoted (filename : Text) : QuotedName filename (asciiName filename) := by
  constructor
  · intro u hu
    rw [asciiName, List.map_map] at hu
    obtain ⟨v, -, rfl⟩ := List.mem_map.mp hu
    simp only [Function.comp_apply, Printable]
    split_ifs with hprintable hquote hquote
    · decide
    · exact ⟨hprintable, not_or.mp hquote⟩
    · decide
    · decide
  · rw [asciiName, List.length_map, List.length_map]

theorem unescaped_attrChar : ∀ c ∈ unescapedSet, Utf16.encodeChar c = [UInt16.ofNat c.toNat] ∧
    UInt16.ofNat c.toNat ≠ percent ∧ UInt16.ofNat c.toNat < 0x80 ∧
    String.utf8EncodeChar c = [UInt8.ofNat (UInt16.ofNat c.toNat).toNat] ∧
    (AttrChar (UInt16.ofNat c.toNat) ↔ c ∉ delimiters) ∧ Printable (UInt16.ofNat c.toNat) :=
  List.all_iff_forall_prop.mp (by decide)

theorem delimiters_unescaped : ∀ c ∈ delimiters, c ∈ unescapedSet := List.all_iff_forall_prop.mp (by decide)

theorem printable_triplet (b : UInt8) : ∀ u ∈ triplet b, Printable u := by
  have hdigit : ∀ n < 16, Printable (hexDigit 0x41 n) := by decide
  intro u hu
  rw [triplet, List.mem_cons, List.mem_cons, List.mem_singleton] at hu
  obtain rfl | rfl | rfl := hu
  · decide
  · exact hdigit _ (high_lt b)
  · exact hdigit _ (low_lt b)

theorem printable_encodeChar (c : Char) : ∀ u ∈ encodeChar c, Printable u := by
  by_cases h : c ∈ unescapedSet
  · obtain ⟨hunits, -, -, -, -, hprintable⟩ := unescaped_attrChar c h
    rw [encodeChar, if_pos h, hunits]
    simpa using hprintable
  · rw [encodeChar, if_neg h]
    intro u hu
    obtain ⟨b, -, hb⟩ := List.mem_flatMap.mp hu
    exact printable_triplet b u hb

theorem percentDecode_encodeChar (c : Char) (us : Text) :
    percentDecode (encodeChar c ++ us) = (percentDecode us).map (String.utf8EncodeChar c ++ ·) := by
  by_cases h : c ∈ unescapedSet
  · obtain ⟨hunits, hpercent, hascii, hbytes, -, -⟩ := unescaped_attrChar c h
    rw [encodeChar, if_pos h, hunits, List.singleton_append, percentDecode_cons hpercent hascii, hbytes]
    rfl
  · rw [encodeChar, if_neg h, percentDecode_triplets]

theorem percentDecode_encoded (cs : List Char) :
    percentDecode (cs.flatMap encodeChar) = some (cs.flatMap String.utf8EncodeChar) := by
  induction cs with
  | nil => rfl
  | cons c cs ih => rw [List.flatMap_cons, percentDecode_encodeChar, ih, Option.map_some, List.flatMap_cons]

theorem escaped_encodeChar (c : Char) (us : Text) :
    Escaped AttrChar (encodeChar c ++ us) ↔ c ∉ delimiters ∧ Escaped AttrChar us := by
  by_cases h : c ∈ unescapedSet
  · obtain ⟨hunits, hpercent, -, -, hattr, -⟩ := unescaped_attrChar c h
    rw [encodeChar, if_pos h, hunits, List.singleton_append, escaped_cons hpercent, hattr]
  · have hplain : c ∉ delimiters := fun hc => h (delimiters_unescaped c hc)
    rw [encodeChar, if_neg h, escaped_triplets]
    simp [hplain]

theorem escaped_encoded (cs : List Char) :
    Escaped AttrChar (cs.flatMap encodeChar) ↔ ∀ c ∈ cs, c ∉ delimiters := by
  induction cs with
  | nil => simp [Escaped]
  | cons c cs ih => rw [List.flatMap_cons, escaped_encodeChar, ih, List.forall_mem_cons]

theorem encoded_extended (filename : String) :
    ExtendedName filename (filename.toList.flatMap encodeChar) ↔ ∀ c ∈ filename.toList, c ∉ delimiters := by
  constructor
  · intro h
    exact (escaped_encoded _).mp h.escaped
  · intro h
    refine ⟨(escaped_encoded _).mpr h, _, percentDecode_encoded _, ?_⟩
    have hbytes : (filename.toList.flatMap String.utf8EncodeChar).toByteArray = filename.toByteArray :=
      String.utf8Encode_toList
    rw [hbytes, String.fromUTF8?, dif_pos filename.isValidUTF8]
    rfl

theorem contentDisposition_units (filename : String) :
    contentDisposition (units filename) =
      some (units "attachment; filename=\"" ++ asciiName (units filename) ++ units "\"; filename*=UTF-8''" ++
        filename.toList.flatMap encodeChar) := by
  rw [contentDisposition, encodeURIComponent, units, decode_encode]
  rfl

theorem header_printable (filename : String) :
    ∀ u ∈ units "attachment; filename=\"" ++ asciiName (units filename) ++ units "\"; filename*=UTF-8''" ++
      filename.toList.flatMap encodeChar, Printable u := by
  intro u hu
  simp only [List.mem_append] at hu
  obtain ((hu | hu) | hu) | hu := hu
  · exact List.all_iff_forall_prop.mp (by decide) u hu
  · exact ((asciiName_quoted _).printable u hu).1
  · exact List.all_iff_forall_prop.mp (by decide) u hu
  · obtain ⟨c, -, hc⟩ := List.mem_flatMap.mp hu
    exact printable_encodeChar c u hc

theorem delimiters_of_wellFormed {filename : String} {header : Text}
    (hheader : contentDisposition (units filename) = some header) (h : WellFormedFor filename header) :
    ∀ c ∈ filename.toList, c ∉ delimiters := by
  obtain ⟨-, ascii, value, hsplit, hquoted, hextended⟩ := h
  rw [contentDisposition_units, Option.some_inj] at hheader
  have hlength : ascii.length = (asciiName (units filename)).length := by
    rw [hquoted.length, (asciiName_quoted _).length]
  have hvalue : value = filename.toList.flatMap encodeChar := by
    rw [← hheader] at hsplit
    simp only [List.append_assoc] at hsplit
    have hrest := List.append_cancel_left hsplit
    have hafter := (List.append_inj hrest hlength.symm).2
    exact (List.append_cancel_left hafter).symm
  rw [hvalue] at hextended
  exact (encoded_extended filename).mp hextended

theorem contentDisposition_wellFormed_iff (filename : String) :
    ∃ header, contentDisposition (units filename) = some header ∧
      (WellFormedFor filename header ↔ ∀ c ∈ filename.toList, c ∉ delimiters) := by
  refine ⟨_, contentDisposition_units filename, delimiters_of_wellFormed (contentDisposition_units filename), ?_⟩
  intro h
  exact ⟨header_printable filename, _, _, rfl, asciiName_quoted _, (encoded_extended filename).mpr h⟩

theorem contentDisposition_parenthesis :
    ¬ ∃ header, contentDisposition (units "report (1).pdf") = some header ∧
      WellFormedFor "report (1).pdf" header := by
  rintro ⟨header, hheader, hwell⟩
  exact delimiters_of_wellFormed hheader hwell '(' (by decide) (by decide)

end Cimp.ContentDisposition
