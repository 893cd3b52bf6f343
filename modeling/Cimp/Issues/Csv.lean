import Cimp.Lib.Csv
import Cimp.Lib.Utf16

namespace Cimp.IssuesCsv

open Csv Utf16

abbrev Text := List UInt16

def ascii : Alphabet UInt16 := ⟨0x22, 0x2C, 0x0D, 0x0A, by decide⟩

def formulaChars : Text := units "=+-@\t\r"

def StartsFormula (s : Text) : Prop := ∃ c ∈ s.head?, c ∈ formulaChars

instance (s : Text) : Decidable (StartsFormula s) := inferInstanceAs (Decidable (∃ c ∈ s.head?, c ∈ formulaChars))

def guarded (s : Text) : Text := if StartsFormula s then units "'" ++ s else s

/-- `none` is `null` or `undefined`. -/
def cell (value : Option Text) : Text :=
  units "\"" ++ ((guarded (value.getD [])).flatMap (fun c => if c = 0x22 then units "\"\"" else [c]) ++ units "\"")

def headers : List Text :=
  ["referenceNo", "status", "priority", "platform", "reporter", "assignee",
    "createdAt", "updatedAt", "resolvedAt", "closedAt"].map units

structure CsvPlatform where
  key : Option Text

structure CsvPerson where
  name : Option Text

structure CsvIssue (Date : Type) where
  referenceNo : Option Text
  status : Option Text
  priority : Option Text
  platform : Option CsvPlatform
  reporter : Option CsvPerson
  assignee : Option CsvPerson
  createdAt : Option Date
  updatedAt : Option Date
  resolvedAt : Option Date
  closedAt : Option Date

variable {Date : Type} (toISOString : Date → Text)

def CsvIssue.values (i : CsvIssue Date) : List (Option Text) :=
  [i.referenceNo,
    i.status,
    i.priority,
    (i.platform.bind CsvPlatform.key).getD [],
    (i.reporter.bind CsvPerson.name).getD [],
    (i.assignee.bind CsvPerson.name).getD [],
    (i.createdAt.map toISOString).getD [],
    (i.updatedAt.map toISOString).getD [],
    (i.resolvedAt.map toISOString).getD [],
    (i.closedAt.map toISOString).getD []]

def toCsv (issues : List (CsvIssue Date)) : Text :=
  (units "\r\n").intercalate
    ((units ",").intercalate (headers.map (cell ∘ some)) ::
      issues.map fun i => (units ",").intercalate ((i.values toISOString).map cell))

def CsvIssue.texts (i : CsvIssue Date) : List Text := (i.values toISOString).map (Option.getD · [])

theorem cell_eq (value : Option Text) : cell value = quoted ascii (guarded (value.getD [])) := rfl

theorem toCsv_eq (issues : List (CsvIssue Date)) :
    toCsv toISOString issues =
      lines ascii (headers.map guarded :: issues.map fun i => (i.texts toISOString).map guarded) := by
  have hrow : ∀ values : List (Option Text),
      (units ",").intercalate (values.map cell) = line ascii ((values.map (Option.getD · [])).map guarded) := by
    intro values
    have hcells : values.map cell = values.map fun value => quoted ascii (guarded (value.getD [])) :=
      List.map_congr_left fun value _ => cell_eq value
    rw [hcells, line, List.map_map, List.map_map]
    rfl
  have hheaders : (headers.map some).map (Option.getD · []) = headers := by
    rw [List.map_map]
    exact List.map_id _
  have hissues : (issues.map fun i => (units ",").intercalate ((i.values toISOString).map cell)) =
      (issues.map fun i => (i.texts toISOString).map guarded).map (line ascii) := by
    rw [List.map_map]
    exact List.map_congr_left fun i _ => hrow (i.values toISOString)
  rw [toCsv, ← List.map_map, hrow, hheaders, hissues, lines, List.map_cons]
  rfl

theorem not_startsFormula_guarded (s : Text) : ¬ StartsFormula (guarded s) := by
  by_cases h : StartsFormula s
  · rw [guarded, if_pos h]
    have hquote : (units "'" ++ s).head? = some 0x27 := rfl
    rintro ⟨c, hc, hmem⟩
    rw [hquote, Option.mem_some] at hc
    subst hc
    exact absurd hmem (by decide)
  · rwa [guarded, if_neg h]

theorem headers_guarded : headers.map guarded = headers := by
  have hplain : ∀ s ∈ headers, guarded s = s := by decide
  rw [List.map_congr_left hplain]
  exact List.map_id _

theorem toCsv_reads_back (issues : List (CsvIssue Date)) :
    read ascii (toCsv toISOString issues) =
        some (headers :: issues.map fun i => (i.texts toISOString).map guarded) ∧
      (∀ i ∈ issues, (i.texts toISOString).length = 10) ∧
      ∀ record ∈ headers :: issues.map fun i => (i.texts toISOString).map guarded,
        ∀ s ∈ record, ¬ StartsFormula s := by
  have hrecords : ∀ record ∈ headers :: issues.map fun i => (i.texts toISOString).map guarded,
      ∃ texts : List Text, record = texts.map guarded ∧ texts ≠ [] := by
    intro record hrecord
    cases List.mem_cons.mp hrecord with
    | inl h => exact ⟨headers, h.trans headers_guarded.symm, by simp [headers]⟩
    | inr h =>
      obtain ⟨i, _, rfl⟩ := List.mem_map.mp h
      exact ⟨i.texts toISOString, rfl, by simp [CsvIssue.texts, CsvIssue.values]⟩
  refine ⟨?_, fun i _ => rfl, ?_⟩
  · rw [toCsv_eq, headers_guarded]
    apply read_lines (by simp)
    intro record hrecord
    obtain ⟨texts, rfl, hne⟩ := hrecords record hrecord
    simpa using hne
  · intro record hrecord s hs
    obtain ⟨texts, rfl, _⟩ := hrecords record hrecord
    obtain ⟨t, _, rfl⟩ := List.mem_map.mp hs
    exact not_startsFormula_guarded t

end Cimp.IssuesCsv
