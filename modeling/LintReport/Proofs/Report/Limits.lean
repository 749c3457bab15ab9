/-
  LintReport.Proofs.Report.Limits — where a report meets the greatest length of a number.

  Whatever values stand in the fields of a text of results, there is a report on it, unless a number
  is too long, and that can be at two places only. An integer of the text may have more digits than
  are read, and counts that have been read may add up to a number with more digits than are written.
  In between no number is too long: the tables can be laid out whatever the findings are.

  Proved:
  - `mapM_writeRow`: the rows of findings that are read are written, with all their numbers.
  - `render_eq_error_iff`: a report on files that are read fails only for its sums.
  - `convert_breaks_iff`: the texts without a report that are not merely malformed.
  - `long_numbers_break`: there are such texts, and files that were read but whose sums are too long.
-/

import LintReport.Proofs.Finding.Reading
import LintReport.Proofs.Report.Coloring
import LintReport.Proofs.Report.Parts

namespace LintReport

open Terminal (Coloring)
open Log (Event)
open Json (Value)
open Text (Numeral.Error Numeral.write symbols)
open Text.Numeral (Short)

/-! ## Tables -/

theorem Finding.Writable.shortPlace {m : Finding} (h : m.Writable) : m.ShortPlace :=
  ⟨h.line.short, h.column.short⟩

theorem shortPlaces_of_writable {files : List FileFindings} (h : ∀ f ∈ files, f.Writable) :
    ShortPlaces files :=
  fun f hf m hm => ((h f hf).findings m hm).shortPlace

namespace Section

/-- The rows of findings that are read are written, with all their numbers. -/
theorem mapM_writeRow (coloring : Coloring) {ms : List Finding} (h : ∀ m ∈ ms, m.Writable) :
    ms.mapM (writeRow coloring) = .ok (ms.map (row coloring)) := by
  rw [mapM_eq_ite (writeRow_eq coloring), if_pos fun m hm => (h m hm).shortPlace]

end Section

theorem Run.writable_of_mem_parts {files : List FileFindings}
    (h : ∀ f ∈ files, ∀ m ∈ f.findings, m.Writable) :
    ∀ f ∈ (parts files).new ++ (parts files).existing, ∀ m ∈ f.findings, m.Writable := by
  intro f hf m hm
  obtain ⟨g, hg, rfl | ⟨ms, sub, rfl⟩⟩ := exists_of_mem_parts hf
  · exact h f hg m hm
  · exact h g hg m (sub hm)

/-! ## Sums -/

theorem FileFindings.Writable.nonneg {f : FileFindings} (h : f.Writable) : f.counts.Nonneg :=
  Counts.nonneg_iff.mpr
    ⟨h.errors.nonneg, h.warnings.nonneg, h.fixableErrors.nonneg, h.fixableWarnings.nonneg⟩

/-- Errors and warnings that are not negative are no longer than their sum, and nothing is said of
what can be fixed when it is nothing. -/
theorem Counts.writable_iff {c : Counts} (h : c.Nonneg) :
    c.Writable ↔ Short c.problems ∧ Short c.fixableErrors ∧ Short c.fixableWarnings := by
  obtain ⟨he, hw, hfe, hfw⟩ := Counts.nonneg_iff.mp h
  constructor
  · intro writable
    obtain ⟨problems, -, -, fixable⟩ := writable
    by_cases any : c.Fixable
    · exact ⟨problems, fixable any⟩
    · have none : c.fixableErrors = 0 ∧ c.fixableWarnings = 0 := by
        unfold Counts.Fixable at any
        omega
      rw [none.1, none.2]
      exact ⟨problems, by decide, by decide⟩
  · intro short
    obtain ⟨problems, fixable⟩ := short
    have errors : c.errors ≤ c.problems := by
      show c.errors ≤ c.errors + c.warnings
      omega
    have warnings : c.warnings ≤ c.problems := by
      show c.warnings ≤ c.errors + c.warnings
      omega
    exact ⟨problems, Text.Numeral.short_of_le he errors problems,
      Text.Numeral.short_of_le hw warnings problems, fun _ => fixable⟩

/-- Only problems whose numbers are too long keep a report from being printed. -/
theorem Report.render_eq_error_iff (coloring : Coloring) (r : Report) (e : Numeral.Error) :
    r.render coloring = .error e ↔
      (0 < r.total ∧ ¬ r.counts.Writable) ∧ e = .tooLongToWrite := by
  rw [Report.render_eq]
  by_cases problems : r.total ≤ 0
  · rw [if_pos problems]
    constructor
    · intro ok
      cases ok
    · intro h
      have positive := h.1.1
      omega
  · rw [if_neg problems]
    by_cases writable : r.counts.Writable
    · rw [if_pos writable]
      constructor
      · intro ok
        cases ok
      · intro h
        exact absurd writable h.1.2
    · rw [if_neg writable]
      constructor
      · intro fails
        cases fails
        exact ⟨⟨Int.not_le.mp problems, writable⟩, rfl⟩
      · intro h
        rw [h.2]

namespace Run

/-- The report on the files names problems, and a sum of counts that is too long to be written. -/
def SumsTooLong (policy : Policy) (files : List FileFindings) : Prop :=
  let c := (report .off policy files).counts
  0 < c.problems ∧ ¬ (Short c.problems ∧ Short c.fixableErrors ∧ Short c.fixableWarnings)

/-- A report on files that can be read fails only for its sums. -/
theorem render_eq_error_iff {files : List FileFindings} (h : ∀ f ∈ files, f.Writable)
    (coloring : Coloring) (policy : Policy) (e : Numeral.Error) :
    render coloring policy files = .error e ↔ SumsTooLong policy files ∧ e = .tooLongToWrite := by
  have nonneg (f : FileFindings) (hf : f ∈ files) := (h f hf).nonneg
  rw [render_eq, if_pos (shortPlaces_of_writable h), Report.render_eq_error_iff, Report.total,
    counts_report_coloring coloring .off policy files,
    Counts.writable_iff (nonneg_report nonneg .off policy)]
  rfl

def convert (coloring : Coloring) (policy : Policy) (results : Text) : Except Json.Fault Text :=
  match FileFindings.read results with
  | .error fault => .error fault
  | .ok (files, _) => (render coloring policy files).mapError .numeral

theorem convert_of_error {results : Text} {fault : Json.Fault}
    (h : FileFindings.read results = .error fault) (coloring : Coloring) (policy : Policy) :
    convert coloring policy results = .error fault := by
  rw [convert, h]

/-- Once a text is read, only the sums of counts can be too long. -/
theorem exists_convert_eq_numeral_iff {results : Text} {files : List FileFindings}
    {events : List Event} (h : FileFindings.read results = .ok (files, events))
    (coloring : Coloring) (policy : Policy) :
    (∃ e, convert coloring policy results = .error (.numeral e)) ↔ SumsTooLong policy files := by
  have fails := render_eq_error_iff (writable_of_read h) coloring policy
  have converted : convert coloring policy results =
      (render coloring policy files).mapError .numeral := by
    rw [convert, h]
  rw [converted]
  cases rendered : render coloring policy files with
  | ok text =>
    constructor
    · intro broken
      obtain ⟨e, error⟩ := broken
      cases error
    · intro long
      cases rendered.symm.trans ((fails .tooLongToWrite).mpr ⟨long, rfl⟩)
  | error e =>
    constructor
    · intro
      exact ((fails e).mp rendered).1
    · intro
      exact ⟨e, rfl⟩

/-- A text of results has a report or is malformed, unless a number is too long: an integer in the
text, or a sum of counts. All numbers that are read can be written, those of the tables with them. -/
theorem convert_breaks_iff (results : Text) (coloring : Coloring) (policy : Policy) :
    ((∃ e, convert coloring policy results = .error (.numeral e)) ↔
      (Text.trim results ≠ [] ∧ Json.HasLongInteger results) ∨
        ∃ files events, FileFindings.read results = .ok (files, events) ∧
          SumsTooLong policy files) ∧
    ∀ files events, FileFindings.read results = .ok (files, events) →
      (∀ f ∈ files, f.Writable) ∧
        ∀ f ∈ (parts files).new ++ (parts files).existing,
          f.findings.mapM (Section.writeRow coloring) =
            .ok (f.findings.map (Section.row coloring)) := by
  constructor
  · rw [← exists_read_eq_numeral_iff]
    cases read : FileFindings.read results with
    | error fault =>
      rw [convert_of_error read]
      constructor
      · intro unread
        obtain ⟨e, error⟩ := unread
        cases error
        exact Or.inl ⟨e, rfl⟩
      · intro h
        rcases h with ⟨e, error⟩ | ⟨files, events, isRead, -⟩
        · cases error
          exact ⟨e, rfl⟩
        · cases isRead
    | ok r =>
      obtain ⟨files, events⟩ := r
      rw [exists_convert_eq_numeral_iff read coloring policy]
      constructor
      · intro long
        exact Or.inr ⟨files, events, rfl, long⟩
      · intro h
        rcases h with ⟨e, unread⟩ | ⟨files', events', isRead, long⟩
        · cases unread
        · cases isRead
          exact long
  · intro files events read
    have writable := writable_of_read read
    refine ⟨writable, ?_⟩
    intro f hf
    have findings := writable_of_mem_parts (fun g hg => (writable g hg).findings) f hf
    exact Section.mapM_writeRow coloring findings

/-- Values that no field expects: a fraction, a number below zero, a list as a finding, and so on. -/
theorem convert_breaks_iff_odd_values :
    let finding := "\x7b\"line\":7.5,\"column\":-3\x7d".toList
    let results := "[\x7b\"messages\":[".toList ++ finding ++
      ",[]],\"errorCount\":true,\"version\":\x7b\x7d\x7d,5]".toList
    let f : FileFindings := { path := [], findings := [{ line := 7 }] }
    ∃ events, FileFindings.read results = .ok ([f], events) ∧ f.Writable ∧
      f.findings.mapM (Section.writeRow .off) = .ok (f.findings.map (Section.row .off)) := by
  intro finding results f
  have isRead : ∃ events, FileFindings.read results = .ok ([f], events) := ⟨_, rfl⟩
  obtain ⟨events, read⟩ := isRead
  obtain ⟨writable, rows⟩ := (convert_breaks_iff results .off .sum).2 [f] events read
  exact ⟨events, read, writable f List.mem_cons_self, rows f List.mem_cons_self⟩

/-! ## Numbers that are too long -/

/-- Results of one file with one finding, which reports so many errors and one warning. -/
def crowded (errors : Int) : Value :=
  .array [.object [(symbols "messages".toList, .array [.object []]),
    (symbols "errorCount".toList, .int errors), (symbols "warningCount".toList, .int 1)]]

theorem counts_crowded {n : Int} (h : 0 ≤ n) (policy : Policy) :
    (report .off policy (FileFindings.ofValue (crowded n))).counts = ⟨n, 1, 0, 0⟩ := by
  have new : (newPart .off (FileFindings.ofValue (crowded n))).counts = 0 := rfl
  have existing : (existingPart .off (FileFindings.ofValue (crowded n))).counts =
      ⟨max n 0 + 0, 1, 0, 0⟩ := rfl
  rw [counts_report_eq_combine, new, existing]
  show (⟨policy.combine 0 (max n 0 + 0), policy.combine 0 1, policy.combine 0 0,
    policy.combine 0 0⟩ : Counts) = _
  rw [Policy.zero_combine, Policy.zero_combine, Policy.zero_combine, Int.max_eq_left h,
    Int.add_zero]

theorem sumsTooLong_crowded {n : Int} (h : 0 ≤ n) (long : ¬ Short (n + 1)) (policy : Policy) :
    SumsTooLong policy (FileFindings.ofValue (crowded n)) := by
  unfold SumsTooLong
  rw [counts_crowded h policy]
  refine ⟨?_, fun short => long short.1⟩
  show 0 < n + 1
  omega

theorem writable_crowded {n : Int} (h : Short n) : (crowded n).Writable := by
  have one : Short 1 := by decide
  refine .array fun file hfile => ?_
  cases List.mem_singleton.mp hfile
  refine .object ?_
  simp only [List.forall_mem_cons, List.not_mem_nil, false_implies, implies_true, and_true]
  refine ⟨.array fun item hitem => ?_, .int h, .int one⟩
  cases List.mem_singleton.mp hitem
  exact .object nofun

/-- A text of 4301 digits is JSON, but there is no report on it, and it is not said to be malformed.
Nor is there one on counts that are short one by one, when their sum is not. -/
theorem long_numbers_break :
    (∃ e, convert .off .sum (List.replicate 4301 '1') = .error (.numeral e)) ∧
      (crowded (10 ^ Text.Numeral.maxDigits - 1)).Writable ∧
      render .off .sum (FileFindings.ofValue (crowded (10 ^ Text.Numeral.maxDigits - 1))) =
        .error .tooLongToWrite := by
  have limit : (0 : Int) < 10 ^ Text.Numeral.maxDigits := Int.pow_pos (by decide)
  have short : Short (10 ^ Text.Numeral.maxDigits - 1) := by
    rw [Text.Numeral.short_iff_lt (by omega)]
    omega
  have writable := writable_crowded short
  refine ⟨?_, writable, ?_⟩
  · have digits : ∀ c ∈ List.replicate 4301 '1', c.isDigit = true := by
      intro c hc
      rw [List.eq_of_mem_replicate hc]
      rfl
    have long : Json.HasLongInteger (List.replicate 4301 '1') := by
      apply Json.hasLongInteger_digits digits
      · rw [List.head?_replicate]
        decide
      · rw [List.length_replicate]
        decide
    have more : Text.trim (List.replicate 4301 '1') ≠ [] := by
      rw [List.replicate_succ]
      exact Text.trim_ne_nil (by decide) _
    obtain ⟨e, unread⟩ := exists_read_eq_numeral_iff.mpr ⟨more, long⟩
    exact ⟨e, convert_of_error unread .off .sum⟩
  · have readable := writable_ofValue writable
    refine (render_eq_error_iff readable .off .sum .tooLongToWrite).mpr ⟨?_, rfl⟩
    apply sumsTooLong_crowded (by omega)
    rw [Int.sub_add_cancel, Text.Numeral.short_iff_lt (by omega)]
    omega

end Run

end LintReport
