import Cimp.Common
import Cimp.Common.ContentDisposition
import Cimp.Lib.UriComponent
import Mathlib.Data.List.TakeWhile

namespace Cimp.Download

open ContentDisposition Escapes UriComponent Utf16

/-- What the `i` flag makes of a unit of ASCII. -/
def canonicalize (u : UInt16) : UInt16 := if 0x61 ≤ u ∧ u ≤ 0x7a then u - 0x20 else u

def dropLiteral (literal us : Text) : Option Text :=
  if (us.take literal.length).map canonicalize = literal.map canonicalize then some (us.drop literal.length) else none

def extended : Text := units "filename*=UTF-8''"

def plain : Text := units "filename=\""

def semicolon : UInt16 := 0x3b

def quote : UInt16 := 0x22

/-- The group of `/filename\*=UTF-8''([^;]+)/i`, matched here. -/
def matchExtended (us : Text) : Option Text :=
  (dropLiteral extended us).bind fun rest =>
    let value := rest.takeWhile (· ≠ semicolon)
    if value = [] then none else some value

/-- The group of `/filename="([^"]+)"/i`, matched here. -/
def matchPlain (us : Text) : Option Text :=
  (dropLiteral plain us).bind fun rest =>
    let value := rest.takeWhile (· ≠ quote)
    if value = [] ∨ rest.drop value.length = [] then none else some value

def firstMatch (matchHere : Text → Option Text) : Text → Option Text
  | [] => matchHere []
  | u :: us => (matchHere (u :: us)).or (firstMatch matchHere us)

def isSpaceUnit (u : UInt16) : Bool := isSpace (single u)

def trimUnits (us : Text) : Text := ((us.dropWhile isSpaceUnit).reverse.dropWhile isSpaceUnit).reverse

def decodeFilename (raw : Text) : Text := (decodeURIComponent raw).getD raw

def filenameFromDisposition (disp : Option Text) : Option Text :=
  match disp with
  | none => none
  | some disp =>
    if disp = [] then none
    else match firstMatch matchExtended disp with
      | some value => some (decodeFilename (trimUnits value))
      | none => firstMatch matchPlain disp

/-- The name under which `downloadFile` saves. -/
def downloadName (disp : Option Text) (fallbackName : Text) : Text := (filenameFromDisposition disp).getD fallbackName

/-- The marker of the extended value in some letter case, with no semicolon next. -/
def SpoofsHere (name : Text) : Prop :=
  ∃ marker rest, name = marker ++ rest ∧ marker.map canonicalize = extended.map canonicalize ∧
    rest.head? ≠ some semicolon

def Spoofs (name : Text) : Prop := ∃ before after, name = before ++ after ∧ SpoofsHere after

variable {literal us rest name after value : Text} {u : UInt16}

theorem spoofs_cons : Spoofs (u :: us) ↔ SpoofsHere (u :: us) ∨ Spoofs us := by
  constructor
  · rintro ⟨before, after, hsplit, hhere⟩
    cases before with
    | nil => exact Or.inl (hsplit ▸ hhere)
    | cons v before =>
      rw [List.cons_append, List.cons.injEq] at hsplit
      exact Or.inr ⟨before, after, hsplit.2, hhere⟩
  · rintro (hhere | ⟨before, after, rfl, hhere⟩)
    · exact ⟨[], _, rfl, hhere⟩
    · exact ⟨u :: before, after, rfl, hhere⟩

theorem not_spoofs_nil : ¬ Spoofs [] := by
  rintro ⟨before, after, hsplit, marker, rest, rfl, hmarker, -⟩
  obtain ⟨-, hnil⟩ := List.append_eq_nil_iff.mp hsplit.symm
  rw [(List.append_eq_nil_iff.mp hnil).1] at hmarker
  cases hmarker

theorem dropLiteral_some (h : dropLiteral literal us = some rest) :
    ∃ marker, us = marker ++ rest ∧ marker.map canonicalize = literal.map canonicalize := by
  rw [dropLiteral, Option.ite_none_right_eq_some, Option.some_inj] at h
  obtain ⟨hmarker, rfl⟩ := h
  exact ⟨_, (List.take_append_drop _ _).symm, hmarker⟩

theorem dropLiteral_append {marker : Text} (h : marker.map canonicalize = literal.map canonicalize) (rest : Text) :
    dropLiteral literal (marker ++ rest) = some rest := by
  have hlength : literal.length = marker.length := by
    simpa using (congrArg List.length h).symm
  rw [dropLiteral, hlength, List.take_left, List.drop_left, if_pos h]

theorem matchExtended_skip (hu : canonicalize u ≠ 0x46) (us : Text) : matchExtended (u :: us) = none := by
  have hnone : dropLiteral extended (u :: us) = none := by
    apply if_neg
    intro heq
    exact hu (List.cons.inj heq).1
  rw [matchExtended, hnone, Option.bind_none]

theorem firstMatch_skip {before : Text} (h : ∀ u ∈ before, canonicalize u ≠ 0x46) (us : Text) :
    firstMatch matchExtended (before ++ us) = firstMatch matchExtended us := by
  induction before with
  | nil => rfl
  | cons u before ih =>
    have hrest := ih fun v hv => h v (List.mem_cons_of_mem _ hv)
    rw [List.cons_append, firstMatch, matchExtended_skip (h u List.mem_cons_self), Option.none_or, hrest]

theorem takeWhile_length (l : Text) (v : UInt16) (us : Text) :
    ((l ++ v :: semicolon :: us).takeWhile (· ≠ semicolon)).length ≤ l.length + 1 := by
  induction l with
  | nil =>
    rw [List.nil_append, List.takeWhile_cons]
    split
    · rw [List.takeWhile_cons_of_neg (by simp)]
      exact Nat.le_refl _
    · exact Nat.zero_le _
  | cons w l ih =>
    rw [List.cons_append, List.takeWhile_cons]
    split
    · exact Nat.succ_le_succ ih
    · exact Nat.zero_le _

theorem matchExtended_quoted (hquoted : ∀ u ∈ name, u ≠ quote)
    (h : matchExtended (name ++ quote :: semicolon :: us) = some value) :
    SpoofsHere name ∧ value.length + 16 ≤ name.length := by
  obtain ⟨rest, hdrop, hvalue⟩ := Option.bind_eq_some_iff.mp h
  simp only [Option.ite_none_left_eq_some, Option.some_inj] at hvalue
  obtain ⟨hne, hvalue⟩ := hvalue
  obtain ⟨marker, hsplit, hmarker⟩ := dropLiteral_some hdrop
  have hnone : quote ∉ marker := by
    intro hmem
    have hcanonical := List.mem_map_of_mem (f := canonicalize) hmem
    rw [hmarker] at hcanonical
    exact absurd hcanonical (by decide)
  have hlength : marker.length = 17 := by
    rw [← List.length_map canonicalize, hmarker]
    rfl
  obtain ⟨after, rfl, hrest⟩ : ∃ after, name = marker ++ after ∧ rest = after ++ quote :: semicolon :: us := by
    obtain ⟨after, hname, hrest⟩ | ⟨after, hmark, hafter⟩ := List.append_eq_append_iff.mp hsplit
    · cases after with
      | nil => exact ⟨[], by simpa using hname.symm, by simpa using hrest.symm⟩
      | cons v after =>
        rw [List.cons_append, List.cons.injEq] at hrest
        rw [hname, ← hrest.1] at hnone
        exact absurd (List.mem_append_right _ List.mem_cons_self) hnone
    · exact ⟨after, hmark, hafter⟩
  subst hrest
  constructor
  · refine ⟨marker, after, rfl, hmarker, ?_⟩
    intro hhead
    apply hne
    obtain ⟨tail, rfl⟩ : ∃ tail, after = semicolon :: tail := by
      cases after with
      | nil => cases hhead
      | cons v tail =>
        cases hhead
        exact ⟨tail, rfl⟩
    rw [List.cons_append, List.takeWhile_cons_of_neg (by simp)]
  · have hle := takeWhile_length after quote us
    rw [hvalue] at hle
    rw [List.length_append, hlength]
    omega

theorem matchExtended_spoofed (h : SpoofsHere name) (us : Text) :
    ∃ value, matchExtended (name ++ quote :: us) = some value := by
  obtain ⟨marker, rest, rfl, hmarker, hhead⟩ := h
  have hne : (rest ++ quote :: us).takeWhile (· ≠ semicolon) ≠ [] := by
    cases rest with
    | nil =>
      rw [List.nil_append, List.takeWhile_cons_of_pos (by decide)]
      exact List.cons_ne_nil _ _
    | cons v rest =>
      have hv : v ≠ semicolon := fun hv => hhead (by rw [hv, List.head?_cons])
      rw [List.cons_append, List.takeWhile_cons_of_pos (by simpa using hv)]
      exact List.cons_ne_nil _ _
  rw [List.append_assoc, matchExtended, dropLiteral_append hmarker, Option.bind_some]
  exact ⟨_, if_neg hne⟩

theorem firstMatch_quoted (hquoted : ∀ u ∈ name, u ≠ quote) (us : Text) (hclean : ¬ Spoofs name) :
    firstMatch matchExtended (name ++ quote :: semicolon :: us) = firstMatch matchExtended (quote :: semicolon :: us) := by
  induction name with
  | nil => rfl
  | cons u name ih =>
    rw [spoofs_cons, not_or] at hclean
    have hhere : matchExtended (u :: name ++ quote :: semicolon :: us) = none := by
      apply Option.eq_none_iff_forall_ne_some.mpr
      intro value hvalue
      exact hclean.1 (matchExtended_quoted hquoted hvalue).1
    rw [List.cons_append] at hhere ⊢
    rw [firstMatch, hhere, Option.none_or]
    exact ih (fun v hv => hquoted v (List.mem_cons_of_mem _ hv)) hclean.2

theorem firstMatch_spoofed (hquoted : ∀ u ∈ name, u ≠ quote) (us : Text) (hspoofs : Spoofs name) :
    ∃ value, firstMatch matchExtended (name ++ quote :: semicolon :: us) = some value ∧ value.length + 16 ≤ name.length := by
  induction name with
  | nil => exact absurd hspoofs not_spoofs_nil
  | cons u name ih =>
    rw [List.cons_append, firstMatch]
    cases hhere : matchExtended (u :: (name ++ quote :: semicolon :: us)) with
    | some value => exact ⟨value, rfl, (matchExtended_quoted hquoted hhere).2⟩
    | none =>
      obtain hspoofs | hspoofs := spoofs_cons.mp hspoofs
      · obtain ⟨value, hvalue⟩ := matchExtended_spoofed hspoofs (semicolon :: us)
        rw [List.cons_append, hhere] at hvalue
        cases hvalue
      · obtain ⟨value, hvalue, hlength⟩ := ih (fun v hv => hquoted v (List.mem_cons_of_mem _ hv)) hspoofs
        exact ⟨value, hvalue, Nat.le_succ_of_le hlength⟩

/-- What `encodeURIComponent` writes is neither cut at a semicolon nor trimmed. -/
def Kept (u : UInt16) : Prop := u ≠ semicolon ∧ isSpaceUnit u = false

instance (u : UInt16) : Decidable (Kept u) := inferInstanceAs (Decidable (_ ∧ _))

theorem kept_triplet (b : UInt8) : ∀ u ∈ triplet b, Kept u := by
  have hdigit : ∀ n < 16, Kept (hexDigit 0x41 n) := by decide
  intro u hu
  rw [triplet, List.mem_cons, List.mem_cons, List.mem_singleton] at hu
  obtain rfl | rfl | rfl := hu
  · decide
  · exact hdigit _ (high_lt b)
  · exact hdigit _ (low_lt b)

theorem kept_unescaped : ∀ c ∈ unescapedSet, Kept (UInt16.ofNat c.toNat) := List.all_iff_forall_prop.mp (by decide)

theorem kept_encoded (cs : List Char) : ∀ u ∈ cs.flatMap ContentDisposition.encodeChar, Kept u := by
  intro u hu
  obtain ⟨c, -, hc⟩ := List.mem_flatMap.mp hu
  by_cases h : c ∈ unescapedSet
  · rw [ContentDisposition.encodeChar, if_pos h, (unescaped_attrChar c h).1, List.mem_singleton] at hc
    rw [hc]
    exact kept_unescaped c h
  · rw [ContentDisposition.encodeChar, if_neg h] at hc
    obtain ⟨b, -, hb⟩ := List.mem_flatMap.mp hc
    exact kept_triplet b u hb

theorem decodes_encoded (cs : List Char) : Decodes (cs.flatMap ContentDisposition.encodeChar) (encode cs) := by
  induction cs with
  | nil => exact decodes_nil
  | cons c cs ih =>
    rw [List.flatMap_cons, encode, List.flatMap_cons]
    by_cases h : c ∈ unescapedSet
    · obtain ⟨hunits, hpercent, -⟩ := unescaped_attrChar c h
      rw [ContentDisposition.encodeChar, if_pos h, hunits]
      exact ih.unit hpercent
    · rw [ContentDisposition.encodeChar, if_neg h]
      exact ih.triplets c

theorem dropWhile_kept (h : ∀ u ∈ us, Kept u) : us.dropWhile isSpaceUnit = us := by
  cases us with
  | nil => rfl
  | cons u us => rw [List.dropWhile_cons_of_neg (by simp [(h u List.mem_cons_self).2])]

theorem trimUnits_kept (h : ∀ u ∈ us, Kept u) : trimUnits us = us := by
  rw [trimUnits, dropWhile_kept h, dropWhile_kept fun u hu => h u (List.mem_reverse.mp hu), List.reverse_reverse]

theorem length_trimUnits (us : Text) : (trimUnits us).length ≤ us.length := by
  rw [trimUnits, List.length_reverse]
  calc ((us.dropWhile isSpaceUnit).reverse.dropWhile isSpaceUnit).length
      ≤ (us.dropWhile isSpaceUnit).reverse.length := (List.dropWhile_suffix _).length_le
    _ = (us.dropWhile isSpaceUnit).length := List.length_reverse
    _ ≤ us.length := (List.dropWhile_suffix _).length_le

theorem length_decodeFilename (raw : Text) : (decodeFilename raw).length ≤ raw.length := by
  unfold decodeFilename
  cases h : decodeURIComponent raw with
  | none => exact Nat.le_refl _
  | some decoded => exact length_decodeURIComponent h

theorem matchExtended_value (h : ∀ u ∈ us, Kept u) :
    matchExtended (extended ++ us) = if us = [] then none else some us := by
  have hall : us.takeWhile (· ≠ semicolon) = us := by
    apply List.takeWhile_eq_self_iff.mpr
    intro u hu
    exact decide_eq_true (h u hu).1
  rw [matchExtended, dropLiteral_append rfl, Option.bind_some]
  simp only [hall]

theorem firstMatch_value (h : ∀ u ∈ us, Kept u) (hne : us ≠ []) :
    firstMatch matchExtended (units "\"; " ++ (extended ++ us)) = some us := by
  have hbefore : ∀ u ∈ units "\"; ", canonicalize u ≠ 0x46 := List.all_iff_forall_prop.mp (by decide)
  have hhere := matchExtended_value h
  rw [if_neg hne] at hhere
  rw [firstMatch_skip hbefore]
  obtain ⟨tail, htail⟩ : ∃ tail, extended ++ us = 0x66 :: tail := ⟨_, rfl⟩
  rw [htail] at hhere ⊢
  rw [firstMatch, hhere, Option.some_or]

theorem firstMatch_header (us : Text) :
    firstMatch matchExtended (units "attachment; filename=\"" ++ us) = firstMatch matchExtended us := by
  have hbefore : ∀ u ∈ units "attachment; ", canonicalize u ≠ 0x46 := List.all_iff_forall_prop.mp (by decide)
  have hafter : ∀ u ∈ units "ilename=\"", canonicalize u ≠ 0x46 := List.all_iff_forall_prop.mp (by decide)
  have hsplit : units "attachment; filename=\"" = units "attachment; " ++ 0x66 :: units "ilename=\"" := by decide
  have hplain : matchExtended (0x66 :: units "ilename=\"" ++ us) = none := by
    have hnone : dropLiteral extended (0x66 :: units "ilename=\"" ++ us) = none := by
      apply if_neg
      intro heq
      have hunit : some (canonicalize 0x3d) = some (canonicalize 0x2a) := congrArg (fun l => l[8]?) heq
      exact absurd hunit (by decide)
    rw [matchExtended, hnone, Option.bind_none]
  rw [hsplit, List.append_assoc, firstMatch_skip hbefore]
  rw [List.cons_append] at hplain ⊢
  rw [firstMatch, hplain, Option.none_or, firstMatch_skip hafter]

theorem asciiName_no_quote (name : Text) : ∀ u ∈ asciiName name, u ≠ quote := fun u hu =>
  ((asciiName_quoted name).printable u hu).2.1

def replaceUnit (u : UInt16) : UInt16 :=
  let v := if 0x20 ≤ u ∧ u ≤ 0x7e then u else 0x5f
  if v = 0x22 ∨ v = 0x5c then 0x5f else v

theorem asciiName_eq (name : Text) : asciiName name = name.map replaceUnit := by
  rw [asciiName, List.map_map]
  rfl

theorem replaceUnit_or (u : UInt16) : replaceUnit u = u ∨ replaceUnit u = 0x5f := by
  unfold replaceUnit
  by_cases hprintable : 0x20 ≤ u ∧ u ≤ 0x7e
  · rw [if_pos hprintable]
    by_cases hescape : u = 0x22 ∨ u = 0x5c
    · exact Or.inr (if_pos hescape)
    · exact Or.inl (if_neg hescape)
  · rw [if_neg hprintable]
    exact Or.inr (by decide)

theorem replaceUnit_marker (h : canonicalize u ∈ extended.map canonicalize) : replaceUnit u = u := by
  have hmarker : ∀ v ∈ extended.map canonicalize, replaceUnit v = v := List.all_iff_forall_prop.mp (by decide)
  unfold canonicalize at h
  split at h
  · rename_i hletter
    rw [UInt16.le_iff_toNat_le, UInt16.le_iff_toNat_le] at hletter
    have hprintable : 0x20 ≤ u ∧ u ≤ 0x7e := by
      rw [UInt16.le_iff_toNat_le, UInt16.le_iff_toNat_le]
      exact ⟨Nat.le_trans (by decide) hletter.1, Nat.le_trans hletter.2 (by decide)⟩
    have hplain : ¬ (u = 0x22 ∨ u = 0x5c) := by
      rintro (rfl | rfl)
      · exact absurd hletter.1 (by decide)
      · exact absurd hletter.1 (by decide)
    simp only [replaceUnit, if_pos hprintable, if_neg hplain]
  · exact hmarker u h

theorem replaceUnit_semicolon : replaceUnit u = semicolon ↔ u = semicolon := by
  constructor
  · intro h
    obtain hsame | hreplaced := replaceUnit_or u
    · exact hsame.symm.trans h
    · rw [hreplaced] at h
      exact absurd h (by decide)
  · rintro rfl
    decide

theorem replaceUnit_canonical (h : canonicalize (replaceUnit u) ∈ extended.map canonicalize) : replaceUnit u = u := by
  obtain hsame | hreplaced := replaceUnit_or u
  · exact hsame
  · rw [hreplaced] at h
    exact absurd h (by decide)

theorem head_replaceUnit : (us.map replaceUnit).head? = some semicolon ↔ us.head? = some semicolon := by
  cases us with
  | nil => simp
  | cons u us => simp [replaceUnit_semicolon]

theorem spoofsHere_asciiName : SpoofsHere (us.map replaceUnit) ↔ SpoofsHere us := by
  constructor
  · rintro ⟨marker, rest, hsplit, hmarker, hhead⟩
    obtain ⟨kept, after, rfl, rfl, rfl⟩ := List.map_eq_append_iff.mp hsplit
    have hsame : kept.map replaceUnit = kept := by
      refine (List.map_congr_left (g := id) fun u hu => ?_).trans (List.map_id kept)
      apply replaceUnit_canonical
      rw [← hmarker]
      exact List.mem_map_of_mem (List.mem_map_of_mem hu)
    rw [hsame] at hmarker
    exact ⟨kept, after, rfl, hmarker, fun hsemicolon => hhead (head_replaceUnit.mpr hsemicolon)⟩
  · rintro ⟨marker, rest, rfl, hmarker, hhead⟩
    have hsame : marker.map replaceUnit = marker := by
      refine (List.map_congr_left (g := id) fun u hu => ?_).trans (List.map_id marker)
      apply replaceUnit_marker
      rw [← hmarker]
      exact List.mem_map_of_mem hu
    refine ⟨marker, rest.map replaceUnit, ?_, hmarker, fun hsemicolon => hhead (head_replaceUnit.mp hsemicolon)⟩
    rw [List.map_append, hsame]

theorem spoofs_asciiName (name : Text) : Spoofs (asciiName name) ↔ Spoofs name := by
  rw [asciiName_eq]
  constructor
  · rintro ⟨before, after, hsplit, hhere⟩
    obtain ⟨before, after, rfl, rfl, rfl⟩ := List.map_eq_append_iff.mp hsplit
    exact ⟨before, after, rfl, spoofsHere_asciiName.mp hhere⟩
  · rintro ⟨before, after, rfl, hhere⟩
    exact ⟨_, _, List.map_append, spoofsHere_asciiName.mpr hhere⟩

theorem filenameFromDisposition_header (us : Text) :
    filenameFromDisposition (some (units "attachment; filename=\"" ++ us)) =
      match firstMatch matchExtended us with
      | some value => some (decodeFilename (trimUnits value))
      | none => firstMatch matchPlain (units "attachment; filename=\"" ++ us) := by
  have hne : units "attachment; filename=\"" ++ us ≠ [] :=
    List.append_ne_nil_of_left_ne_nil (show units "attachment; filename=\"" ≠ [] by decide) us
  simp only [filenameFromDisposition, if_neg hne, firstMatch_header]

/-- A download keeps the name it was sent with exactly where the name is not empty and does not itself hold the
marker of the extended value. -/
theorem filenameFromDisposition_contentDisposition_iff (filename : String) :
    ∃ header, contentDisposition (units filename) = some header ∧
      (filenameFromDisposition (some header) = some (units filename) ↔ filename ≠ "" ∧ ¬ Spoofs (units filename)) := by
  refine ⟨_, contentDisposition_units filename, ?_⟩
  have hkept := kept_encoded filename.toList
  have hseparator : units "\"; filename*=UTF-8''" = units "\"; " ++ extended := by decide
  have hsplit : ∀ name value : Text, units "attachment; filename=\"" ++ name ++ units "\"; filename*=UTF-8''" ++ value =
      units "attachment; filename=\"" ++ (name ++ (units "\"; " ++ (extended ++ value))) := by
    intro name value
    rw [hseparator]
    simp only [List.append_assoc]
  have hquote : ∀ value : Text, units "\"; " ++ value = quote :: semicolon :: (0x20 :: value) := fun _ => rfl
  by_cases hempty : filename = ""
  · subst hempty
    apply iff_of_false
    · decide
    · exact fun h => h.1 rfl
  · rw [hsplit, filenameFromDisposition_header]
    by_cases hspoofs : Spoofs (units filename)
    · apply iff_of_false ?_ fun h => h.2 hspoofs
      obtain ⟨value, hvalue, hlength⟩ := firstMatch_spoofed (asciiName_no_quote (units filename))
        (0x20 :: (extended ++ filename.toList.flatMap ContentDisposition.encodeChar)) ((spoofs_asciiName _).mpr hspoofs)
      rw [hquote, hvalue]
      intro heq
      have hdecoded := length_decodeFilename (trimUnits value)
      have htrimmed := length_trimUnits value
      rw [Option.some.inj heq] at hdecoded
      rw [(asciiName_quoted _).length] at hlength
      omega
    · apply iff_of_true ?_ ⟨hempty, hspoofs⟩
      have hclean : ¬ Spoofs (asciiName (units filename)) := fun h => hspoofs ((spoofs_asciiName _).mp h)
      have hne : filename.toList.flatMap ContentDisposition.encodeChar ≠ [] := by
        intro hnil
        have hdecodes := decodes_encoded filename.toList
        rw [hnil] at hdecodes
        have hnothing := Option.some.inj hdecodes.decodeURIComponent
        have hdecoded := decode_encode filename.toList
        rw [← hnothing] at hdecoded
        exact hempty (String.toList_eq_nil_iff.mp (Option.some.inj hdecoded).symm)
      rw [hquote, firstMatch_quoted (asciiName_no_quote _) _ hclean, ← hquote, firstMatch_value hkept hne]
      simp only [trimUnits_kept hkept, decodeFilename, (decodes_encoded filename.toList).decodeURIComponent,
        Option.getD_some]
      rfl

end Cimp.Download
