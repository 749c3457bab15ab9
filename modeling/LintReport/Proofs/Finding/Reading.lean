/-
  LintReport.Proofs.Finding.Reading — which texts of results are read, and the numbers in them.

  What stands in a field matters only for its default. A text that is JSON is read whatever its
  values are, unless it holds an integer that is too long; and what is read from it are numbers that
  are short enough to be written, one by one.

  Proved:
  - `exists_read_eq_numeral_iff`: only an integer that is too long keeps JSON from being read.
  - `writable_of_read`: all numbers of a file that is read are short, and none is negative.
-/

import LintReport.Finding.Reading
import LintReport.Proofs.Json.Integers
import LintReport.Proofs.Json.Numbers

namespace LintReport

open Json (Value Members)
open Log (Event)
open Text.Numeral (Short)

/-- A text that is not all blanks is read as JSON, and may hold an integer that is too long. -/
theorem exists_read_eq_numeral_iff {results : Text} :
    (∃ e, FileFindings.read results = .error (.numeral e)) ↔
      Text.trim results ≠ [] ∧ Json.HasLongInteger results := by
  rw [← Json.exists_decode_eq_numeral_iff]
  unfold FileFindings.read Reading.value
  split
  · rename_i blank
    simp [blank, Except.map]
  · rename_i more
    cases Json.decode results <;> simp [more, Except.map]

/-! ## Numbers -/

structure ShortNatural (n : Int) : Prop where
  nonneg : 0 ≤ n
  short : Short n

structure Finding.Writable (m : Finding) : Prop where
  line : ShortNatural m.line
  column : ShortNatural m.column

structure FileFindings.Writable (f : FileFindings) : Prop where
  errors : ShortNatural f.counts.errors
  warnings : ShortNatural f.counts.warnings
  fixableErrors : ShortNatural f.counts.fixableErrors
  fixableWarnings : ShortNatural f.counts.fixableWarnings
  findings : ∀ m ∈ f.findings, m.Writable

theorem short_natural {v : Option Value} (h : ∀ w, v = some w → w.Writable) :
    Short (Reading.natural v) := by
  have least {n : Int} (hn : Short n) : Short (max n 0) := by
    by_cases negative : n ≤ 0
    · rw [Int.max_eq_right negative]
      decide
    · rw [Int.max_eq_left (by omega)]
      exact hn
  unfold Reading.natural
  split
  · cases h _ rfl with
    | int short => exact least short
  · split
    · rename_i part
      cases h _ rfl with
      | float short => exact least (short _ part)
    · decide
  · decide

theorem natural_named {ms : Members} (h : ms.Writable) (name : String) :
    ShortNatural (Reading.natural (ms.named? name)) :=
  ⟨Reading.natural_nonneg _, short_natural fun _ found => Members.Writable.get? h found⟩

/-- The objects among the items of a value. -/
theorem writable_of_mem_items {v : Option Value} (h : ∀ w, v = some w → w.Writable) {ms : Members}
    (hm : ms ∈ (Reading.items v).filterMap Value.members?) : ms.Writable := by
  obtain ⟨item, mem, object⟩ := List.mem_filterMap.mp hm
  have writable : item.Writable := by
    unfold Reading.items at mem
    split at mem
    · cases h _ rfl with
      | array each => exact each item mem
    · cases mem
  unfold Value.members? at object
  split at object
  · cases object
    cases writable with
    | object each => exact each
  · cases object

theorem writable_ofMembers {ms : Members} (h : ms.Writable) :
    (FileFindings.ofMembers ms).Writable where
  errors := natural_named h _
  warnings := natural_named h _
  fixableErrors := natural_named h _
  fixableWarnings := natural_named h _
  findings := by
    intro m hm
    obtain ⟨ns, mem, rfl⟩ := List.mem_map.mp hm
    have writable : ns.Writable :=
      writable_of_mem_items (fun _ found => Members.Writable.get? h found) mem
    exact ⟨natural_named writable _, natural_named writable _⟩

theorem writable_ofValue {v : Value} (h : v.Writable) :
    ∀ f ∈ FileFindings.ofValue v, f.Writable := by
  intro f hf
  cases v with
  | array vs =>
    obtain ⟨ms, mem, rfl⟩ := List.mem_map.mp hf
    have items : ms ∈ (Reading.items (some (.array vs))).filterMap Value.members? := mem
    refine writable_ofMembers (writable_of_mem_items ?_ items)
    intro w hw
    cases hw
    exact h
  | _ => cases hf

theorem writable_value {results : Text} {v : Value} (h : Reading.value results = .ok v) :
    v.Writable := by
  unfold Reading.value at h
  split at h
  · cases h
    exact .null
  · exact Json.writable_decode h

/-- All numbers of a file that is read are short, and none is negative. -/
theorem writable_of_read {results : Text} {files : List FileFindings} {events : List Event}
    (h : FileFindings.read results = .ok (files, events)) : ∀ f ∈ files, f.Writable := by
  unfold FileFindings.read at h
  cases value : Reading.value results with
  | error fault =>
    rw [value] at h
    cases h
  | ok v =>
    rw [value] at h
    cases h
    exact writable_ofValue (writable_value value)

end LintReport
