import Mathlib.Data.List.Basic
import Mathlib.Tactic.Common

namespace Cimp.Csv

structure Alphabet (α : Type*) where
  quote : α
  comma : α
  cr : α
  lf : α
  nodup : [quote, comma, cr, lf].Nodup

inductive Mode
  | start | plain | quoted | closed | return
deriving DecidableEq, Repr

/-- `closed` is after a quote inside a quoted cell, `return` after the CR of a record's end. -/
structure Reader (α : Type*) where
  mode : Mode
  cell : List α
  record : List (List α)
  records : List (List (List α))

variable {α : Type*}

theorem Alphabet.comma_ne_quote (a : Alphabet α) : a.comma ≠ a.quote := by
  have h := a.nodup
  simp only [List.nodup_cons, List.mem_cons] at h
  tauto

theorem Alphabet.cr_ne (a : Alphabet α) : a.cr ≠ a.quote ∧ a.cr ≠ a.comma := by
  have h := a.nodup
  simp only [List.nodup_cons, List.mem_cons] at h
  tauto

variable [DecidableEq α] {a : Alphabet α}

def Reader.push (r : Reader α) (mode : Mode) (c : α) : Reader α := { r with mode, cell := r.cell ++ [c] }

def Reader.endCell (r : Reader α) (mode : Mode) : Reader α := { r with mode, cell := [], record := r.record ++ [r.cell] }

def Reader.endRecord (r : Reader α) : Reader α :=
  { r with mode := .start, record := [], records := r.records ++ [r.record] }

def Reader.between (a : Alphabet α) (r : Reader α) (c : α) (otherwise : Option (Reader α)) : Option (Reader α) :=
  if c = a.comma then some (r.endCell .start)
  else if c = a.cr then some (r.endCell .return)
  else otherwise

def Reader.step (a : Alphabet α) (r : Reader α) (c : α) : Option (Reader α) :=
  match r.mode with
  | .start =>
    if c = a.quote then some { r with mode := .quoted }
    else r.between a c (if c = a.lf then none else some (r.push .plain c))
  | .plain => r.between a c (if c = a.quote ∨ c = a.lf then none else some (r.push .plain c))
  | .quoted => if c = a.quote then some { r with mode := .closed } else some (r.push .quoted c)
  | .closed => if c = a.quote then some (r.push .quoted c) else r.between a c none
  | .return => if c = a.lf then some r.endRecord else none

def Reader.run (a : Alphabet α) : Reader α → List α → Option (Reader α)
  | r, [] => some r
  | r, c :: text => (r.step a c).bind fun r => r.run a text

/-- The line break after the last record is optional. -/
def Reader.finish (r : Reader α) : Option (List (List (List α))) :=
  match r.mode with
  | .quoted | .return => none
  | .start => if r.record = [] ∧ r.records ≠ [] then some r.records else some (r.endCell .start).endRecord.records
  | .plain | .closed => some (r.endCell .start).endRecord.records

def blank : Reader α := ⟨.start, [], [], []⟩

/-- Answers the records of a text, `none` where the text is not one of the format. -/
def read (a : Alphabet α) (text : List α) : Option (List (List (List α))) :=
  (blank.run a text).bind Reader.finish

def quoted (a : Alphabet α) (cell : List α) : List α :=
  a.quote :: (cell.flatMap (fun c => if c = a.quote then [a.quote, a.quote] else [c]) ++ [a.quote])

def line (a : Alphabet α) (record : List (List α)) : List α := [a.comma].intercalate (record.map (quoted a))

def lines (a : Alphabet α) (records : List (List (List α))) : List α :=
  [a.cr, a.lf].intercalate (records.map (line a))

theorem Reader.run_append (r : Reader α) (text rest : List α) :
    r.run a (text ++ rest) = (r.run a text).bind fun r => r.run a rest := by
  induction text generalizing r with
  | nil => rfl
  | cons c text ih =>
    rw [List.cons_append, Reader.run, Reader.run]
    cases r.step a c with
    | none => rfl
    | some r' => exact ih r'

theorem run_doubled (cell : List α) (before : List α) (record : List (List α)) (records : List (List (List α))) :
    Reader.run a ⟨.quoted, before, record, records⟩
      (cell.flatMap fun c => if c = a.quote then [a.quote, a.quote] else [c]) =
        some ⟨.quoted, before ++ cell, record, records⟩ := by
  induction cell generalizing before with
  | nil => rw [List.append_nil, List.flatMap_nil, Reader.run]
  | cons c cell ih =>
    rw [List.flatMap_cons, Reader.run_append]
    by_cases h : c = a.quote
    · subst h
      rw [if_pos rfl]
      simpa [Reader.run, Reader.step, Reader.push] using ih (before ++ [a.quote])
    · rw [if_neg h]
      simpa [Reader.run, Reader.step, Reader.push, h] using ih (before ++ [c])

theorem run_quoted (cell : List α) (record : List (List α)) (records : List (List (List α))) :
    Reader.run a ⟨.start, [], record, records⟩ (quoted a cell) = some ⟨.closed, cell, record, records⟩ := by
  have hbody := run_doubled (a := a) cell [] record records
  rw [quoted, Reader.run, Reader.step]
  simp only [↓reduceIte, Option.bind_some]
  rw [Reader.run_append, hbody]
  simp [Reader.run, Reader.step]

/-- The record so far and the cell just closed make up `record`. -/
structure Reader.Ended (r : Reader α) (record : List (List α)) (records : List (List (List α))) : Prop where
  mode : r.mode = .closed
  record : r.record ++ [r.cell] = record
  records : r.records = records

theorem run_line (cell : List α) (rest : List (List α)) (before : List (List α)) (records : List (List (List α))) :
    ∃ r, Reader.run a ⟨.start, [], before, records⟩ (line a (cell :: rest)) = some r ∧
      r.Ended (before ++ cell :: rest) records := by
  induction rest generalizing cell before with
  | nil =>
    refine ⟨⟨.closed, cell, before, records⟩, ?_, rfl, rfl, rfl⟩
    rw [line, List.map_singleton, List.intercalate_singleton, run_quoted]
  | cons next rest ih =>
    obtain ⟨r, hrun, hended⟩ := ih next (before ++ [cell])
    rw [List.append_assoc, List.singleton_append] at hended
    refine ⟨r, ?_, hended⟩
    have hsplit : line a (cell :: next :: rest) = quoted a cell ++ a.comma :: line a (next :: rest) := by
      rw [line, List.map_cons, List.map_cons, List.intercalate_cons_cons]
      simp [line]
    rw [hsplit, Reader.run_append, run_quoted, Option.bind_some, Reader.run]
    simpa [Reader.step, Reader.between, Reader.endCell, a.comma_ne_quote] using hrun

theorem run_lineBreak {r : Reader α} {record : List (List α)} {records : List (List (List α))}
    (h : r.Ended record records) :
    r.run a [a.cr, a.lf] = some ⟨.start, [], [], records ++ [record]⟩ := by
  obtain ⟨mode, cell, before, earlier⟩ := r
  obtain ⟨rfl, rfl, rfl⟩ := h
  simp [Reader.run, Reader.step, Reader.between, Reader.endCell, Reader.endRecord, a.cr_ne]

theorem run_record {record : List (List α)} (hne : record ≠ []) (records : List (List (List α))) :
    ∃ r, Reader.run a ⟨.start, [], [], records⟩ (line a record) = some r ∧ r.Ended record records := by
  obtain ⟨cell, rest, rfl⟩ := List.exists_cons_of_ne_nil hne
  exact run_line cell rest [] records

theorem run_lines (first : List (List α)) (rest : List (List (List α))) (records : List (List (List α)))
    (h : ∀ record ∈ first :: rest, record ≠ []) :
    ∃ r last front, Reader.run a ⟨.start, [], [], records⟩ (lines a (first :: rest)) = some r ∧
      r.Ended last (records ++ front) ∧ front ++ [last] = first :: rest := by
  induction rest generalizing first records with
  | nil =>
    obtain ⟨r, hrun, hended⟩ := run_record (a := a) (h first (by simp)) records
    refine ⟨r, first, [], ?_, ?_, rfl⟩
    · rw [lines, List.map_singleton, List.intercalate_singleton, hrun]
    · rwa [List.append_nil]
  | cons next rest ih =>
    obtain ⟨hfirst, hlater⟩ := List.forall_mem_cons.mp h
    obtain ⟨r, hrun, hended⟩ := run_record (a := a) hfirst records
    obtain ⟨t, last, front, ht, hlast, hfront⟩ := ih next (records ++ [first]) hlater
    have hsplit : lines a (first :: next :: rest) = line a first ++ ([a.cr, a.lf] ++ lines a (next :: rest)) := by
      rw [lines, List.map_cons, List.map_cons, List.intercalate_cons_cons, List.append_assoc]
      rfl
    refine ⟨t, last, first :: front, ?_, ?_, ?_⟩
    · rw [hsplit, Reader.run_append, hrun, Option.bind_some, Reader.run_append, run_lineBreak hended, Option.bind_some, ht]
    · rwa [List.append_assoc, List.singleton_append] at hlast
    · rw [List.cons_append, hfront]

theorem read_lines {records : List (List (List α))} (hne : records ≠ []) (h : ∀ record ∈ records, record ≠ []) :
    read a (lines a records) = some records := by
  obtain ⟨first, rest, rfl⟩ := List.exists_cons_of_ne_nil hne
  obtain ⟨r, last, front, hrun, hended, hfront⟩ := run_lines (a := a) first rest [] h
  rw [read, blank, hrun, Option.bind_some, Reader.finish, hended.mode]
  simp only [Reader.endCell, Reader.endRecord, hended.record, hended.records]
  rw [List.nil_append, hfront]

end Cimp.Csv
