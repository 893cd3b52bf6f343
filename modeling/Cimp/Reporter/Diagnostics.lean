import Cimp.Lib.Base64
import Cimp.Lib.Utf8
import Cimp.Reporter.ContextSanitizer

namespace Cimp.Diagnostics

open Json Utf16

def ampersand : UInt16 := 0x26

section Load

-- the stream that decompresses, `none` where it fails
variable (inflate : List UInt8 → Option (List UInt8))

end Load

/-- `length` is what class-validator counts for `MaxLength`. -/
def accepts (length : Text → ℕ) (context : Option Text) : Bool := context.all fun text => length text ≤ 65536

section Fragment

variable {p value : Text} {ps qs : List Text} {sep : UInt16}

end Fragment

section Payload

variable {inflate : List UInt8 → Option (List UInt8)} {text payload : Text} {obj : Fields ecmaScript.Number}

def utf8 (text : Text) : List UInt8 := Utf8.encodeChars ((decode text).getD [])

/-- The two formats of the parameter. -/
inductive Packs (inflate : List UInt8 → Option (List UInt8)) (text : Text) : Text → Prop
  | plain : Packs inflate text (units "0." ++ Base64.encodeUrl (utf8 text))
  | zipped {packed : List UInt8} (h : inflate packed = some (utf8 text)) :
      Packs inflate text (units "1." ++ Base64.encodeUrl packed)

theorem ampersand_encodeUrl (bytes : List UInt8) : ampersand ∉ Base64.encodeUrl bytes := fun hmem =>
  (Base64.encodeUrl_plain bytes _ hmem).2 rfl

theorem Packs.value (h : Packs inflate text payload) : payload ≠ [] ∧ ampersand ∉ payload := by
  cases h with
  | plain | zipped h =>
    refine ⟨List.append_ne_nil_of_left_ne_nil (by decide) _, ?_⟩
    rw [List.mem_append, not_or]
    exact ⟨by decide, ampersand_encodeUrl _⟩

end Payload

section HandOver

variable {inflate : List UInt8 → Option (List UInt8)} {payload : Text} {obj d : Fields ecmaScript.Number}
  {ps : List Text} {c : ecmaScript.Value}

theorem find_key {k : Text} {v : ecmaScript.Value} (h : (keys d).Nodup) :
    (d.find? fun f => f.1 = k) = some (k, v) ↔ (k, v) ∈ d := by
  constructor
  · exact List.mem_of_find?_eq_some
  · intro hmem
    induction d with
    | nil => cases hmem
    | cons f d ih =>
      obtain ⟨hnot, hnodup⟩ := List.nodup_cons.mp h
      obtain heq | hmem := List.mem_cons.mp hmem
      · rw [← heq, List.find?_cons_of_pos (by simp)]
      · have hne : f.1 ≠ k := fun heq => hnot (heq ▸ List.mem_map_of_mem hmem)
        rw [List.find?_cons_of_neg (by simpa using hne), ih hnodup hmem]

end HandOver

section Sample

end Sample

end Cimp.Diagnostics
