/-
  LintReport.Proofs.Report.Suppression — which runs print nothing.

  Whether a report is printed is decided by the total of its merged counts. These are partly reported
  by the linter, which may contradict the findings, and partly counted anew. A file with new findings
  is always split, so its new findings are counted whatever was reported for it.

  Proved:
  - `render_eq_nil_iff`: a report that can be made is suppressed exactly when its total is not
    positive.
  - `total_report_eq_zero_iff`: a total is zero when both parts have a total of zero.
  - `suppressed_iff`: the runs that print nothing, told by marks and reported counts alone; and
    that a finding on a new line never goes missing in silence.
-/

import LintReport.Proofs.Report.Tally

namespace LintReport

open Terminal (Coloring)
open FileFindings (allFindings)

/-! ## What is printed -/

namespace Run

theorem render_eq_nil_iff (coloring : Coloring) (policy : Policy) (files : List FileFindings) :
    render coloring policy files = .ok [] ↔
      ShortPlaces files ∧ (report coloring policy files).total ≤ 0 := by
  rw [render_eq]
  by_cases short : ShortPlaces files
  · rw [if_pos short, Report.render_eq_nil_iff]
    exact (and_iff_right short).symm
  · rw [if_neg short]
    exact ⟨nofun, fun suppressed => absurd suppressed.1 short⟩

end Run

/-! ## When a total is zero -/

/-- No problem is reported for a file that has findings. -/
def Unreported (files : List FileFindings) : Prop :=
  ∀ f ∈ files, f.findings ≠ [] → f.counts.errors = 0 ∧ f.counts.warnings = 0

instance : DecidablePred Unreported := fun files =>
  inferInstanceAs (Decidable (∀ f ∈ files, _))

namespace Report

theorem total_eq_zero_iff {r : Report} (h : r.counts.Nonneg) :
    r.total = 0 ↔ r.counts.errors = 0 ∧ r.counts.warnings = 0 := by
  obtain ⟨errors, warnings, -⟩ := Counts.nonneg_iff.mp h
  unfold total
  omega

theorem total_ofFiles_eq_zero_iff {files : List FileFindings} (h : ∀ f ∈ files, f.counts.Nonneg)
    (coloring : Coloring) : (ofFiles coloring files).total = 0 ↔ Unreported files := by
  have shown : ∀ c ∈ (files.filter (·.hasFindings)).map (·.counts), c.Nonneg := by
    intro c hc
    obtain ⟨f, hf, rfl⟩ := List.mem_map.mp hc
    exact h f (List.mem_filter.mp hf).1
  have errors := Counts.count_sum_eq_zero_iff shown Counts.errors_mem_kinds
  have warnings := Counts.count_sum_eq_zero_iff shown Counts.warnings_mem_kinds
  rw [total_eq_zero_iff (nonneg_ofFiles h coloring)]
  simp only [ofFiles, errors, warnings]
  constructor
  · intro zero f hf some
    have mem : f.counts ∈ (files.filter (·.hasFindings)).map (·.counts) :=
      List.mem_map_of_mem (List.mem_filter.mpr ⟨hf, by simpa [FileFindings.hasFindings] using some⟩)
    exact ⟨zero.1 _ mem, zero.2 _ mem⟩
  · intro unreported
    have zero : ∀ c ∈ (files.filter (·.hasFindings)).map (·.counts),
        c.errors = 0 ∧ c.warnings = 0 := by
      intro c hc
      obtain ⟨f, hf, rfl⟩ := List.mem_map.mp hc
      obtain ⟨hf, some⟩ := List.mem_filter.mp hf
      exact unreported f hf (by simpa [FileFindings.hasFindings] using some)
    exact ⟨fun c hc => (zero c hc).1, fun c hc => (zero c hc).2⟩

end Report

namespace Run

/-- A total is zero when both parts have a total of zero. -/
theorem total_report_eq_zero_iff {files : List FileFindings} (h : ∀ f ∈ files, f.counts.Nonneg)
    (coloring : Coloring) (policy : Policy) :
    (report coloring policy files).total = 0 ↔
      (newPart coloring files).total = 0 ∧ (existingPart coloring files).total = 0 := by
  have new := nonneg_newPart h coloring
  have existing := nonneg_existingPart h coloring
  have merged {count : Counts → Int} (hc : count ∈ Counts.kinds) :
      count (report coloring policy files).counts = 0 ↔
        count (newPart coloring files).counts = 0 ∧
          count (existingPart coloring files).counts = 0 := by
    rw [count_report hc]
    exact Policy.combine_eq_zero_iff (new count hc) (existing count hc)
  rw [Report.total_eq_zero_iff (nonneg_report h coloring policy), Report.total_eq_zero_iff new,
    Report.total_eq_zero_iff existing, merged Counts.errors_mem_kinds,
    merged Counts.warnings_mem_kinds]
  exact and_and_and_comm

end Run

/-! ## Findings on new lines -/

theorem counts_split_new (coloring : Coloring) (files : List FileFindings) :
    (Report.ofFiles coloring (Split.ofFiles files).new).counts =
      Counts.tally ((allFindings files).filter (·.newLine)) := by
  rw [counts_ofFiles (truthful_new files), allFindings_new]

theorem total_split_new_eq_zero_iff (coloring : Coloring) (files : List FileFindings) :
    (Report.ofFiles coloring (Split.ofFiles files).new).total = 0 ↔
      ∀ f ∈ files, ∀ m ∈ f.findings, m.newLine = false := by
  have size : (Report.ofFiles coloring (Split.ofFiles files).new).total =
      ((allFindings files).filter (·.newLine)).length := by
    rw [Report.total, counts_split_new]
    exact (Counts.tally_bounds _).2.1.1
  have none : (allFindings files).filter (·.newLine) = [] ↔
      ∀ f ∈ files, ∀ m ∈ f.findings, m.newLine = false := by
    simp only [allFindings, List.filter_eq_nil_iff, List.mem_flatMap, Bool.not_eq_true]
    constructor
    · intro h f hf m hm
      exact h m ⟨f, hf, hm⟩
    · intro h m hm
      obtain ⟨f, hf, hm⟩ := hm
      exact h f hf m hm
  rw [size, ← none, ← List.length_eq_zero_iff]
  exact Int.natCast_eq_zero

/-- A file without new findings is taken over as it is. -/
theorem split_existing_of_unmarked {files : List FileFindings}
    (h : ∀ f ∈ files, ∀ m ∈ f.findings, m.newLine = false) :
    (Split.ofFiles files).existing = files := by
  have whole : ∀ f ∈ files, f.existingPart = f := by
    intro f hf
    have old : f.hasNew = false := by
      simpa [FileFindings.hasNew] using h f hf
    rw [FileFindings.existingPart, old]
    rfl
  exact (List.map_congr_left whole).trans (List.map_id files)

/-- Nothing is to be reported: no problem is reported for a file that has findings and, in a run of
whole files, no finding is on a new line. -/
def Suppressed (files : List FileFindings) : Prop :=
  Unreported files ∧ ((∀ f ∈ files, f.scope ≠ some .lineOnly) →
    ∀ f ∈ files, ∀ m ∈ f.findings, m.newLine = false)

instance : DecidablePred Suppressed := fun _ => inferInstanceAs (Decidable (_ ∧ _))

theorem total_eq_zero_iff_suppressed {files : List FileFindings}
    (h : ∀ f ∈ files, f.counts.Nonneg) (coloring : Coloring) (policy : Policy) :
    (Run.report coloring policy files).total = 0 ↔ Suppressed files := by
  rw [Run.total_report_eq_zero_iff h, Run.newPart, Run.existingPart, Suppressed,
    ← Layout.ofFiles_eq_fullFile_iff]
  cases scope : Scope.ofFiles files with
  | lineOnly =>
    rw [Run.parts_of_lineOnly scope, Report.total_ofFiles_eq_zero_iff h]
    constructor
    · intro zero
      refine ⟨zero.1, ?_⟩
      intro full
      cases full
    · intro suppressed
      exact ⟨suppressed.1, rfl⟩
  | fullFile =>
    rw [Run.parts_of_fullFile scope, total_split_new_eq_zero_iff]
    constructor
    · intro zero
      obtain ⟨unmarked, existing⟩ := zero
      rw [split_existing_of_unmarked unmarked, Report.total_ofFiles_eq_zero_iff h] at existing
      exact ⟨existing, fun _ => unmarked⟩
    · intro suppressed
      obtain ⟨unreported, unmarked⟩ := suppressed
      refine ⟨unmarked rfl, ?_⟩
      rw [split_existing_of_unmarked (unmarked rfl)]
      exact (Report.total_ofFiles_eq_zero_iff h coloring).mpr unreported

/-- An error on a new line is counted under both policies. -/
theorem errors_report_pos_of_new {files : List FileFindings} (h : ∀ f ∈ files, f.counts.Nonneg)
    (full : Scope.ofFiles files = .fullFile) {f : FileFindings} (hf : f ∈ files) {m : Finding}
    (hm : m ∈ f.findings) (new : m.newLine = true) (error : m.isError = true) (coloring : Coloring)
    (policy : Policy) : 0 < (Run.report coloring policy files).counts.errors := by
  have counted : 0 < (Run.newPart coloring files).counts.errors := by
    rw [Run.newPart, Run.parts_of_fullFile full, counts_split_new, Counts.errors_tally_pos]
    have found : m ∈ allFindings files := List.mem_flatMap.mpr ⟨f, hf, hm⟩
    exact ⟨m, List.mem_filter.mpr ⟨found, new⟩, error⟩
  rw [Run.count_report Counts.errors_mem_kinds]
  exact (Policy.combine_pos (Int.le_of_lt counted)
    (Run.nonneg_existingPart h coloring _ Counts.errors_mem_kinds)).mpr (.inl counted)

/-- A run that can be printed prints nothing exactly when nothing is to be reported. A finding on a
new line in a run of whole files is never passed over, whatever was reported for its file; if it is
an error, the report has errors and is red. -/
theorem suppressed_iff {files : List FileFindings} (h : ∀ f ∈ files, f.counts.Nonneg)
    (coloring : Coloring) (policy : Policy) :
    (∀ text, Run.render coloring policy files = .ok text → (text = [] ↔ Suppressed files)) ∧
      (Suppressed files → Run.render coloring policy files =
        if ShortPlaces files then .ok [] else .error .tooLongToWrite) ∧
      ((∀ f ∈ files, f.scope ≠ some .lineOnly) → ∀ f ∈ files, ∀ m ∈ f.findings, m.newLine = true →
        Run.render coloring policy files ≠ .ok [] ∧
        (m.isError = true → 0 < (Run.report coloring policy files).counts.errors ∧
          (Run.report coloring policy files).emphasis = .red)) := by
  have none : (Run.report coloring policy files).total ≤ 0 ↔ Suppressed files := by
    have nonneg := Counts.nonneg_iff.mp (Run.nonneg_report h coloring policy)
    rw [← total_eq_zero_iff_suppressed h coloring policy, Report.total]
    omega
  refine ⟨?_, ?_, ?_⟩
  · intro text printed
    have empty : text = [] ↔ Run.render coloring policy files = .ok [] := by
      rw [printed, Except.ok.injEq]
    have short : ShortPlaces files := by
      by_contra long
      rw [Run.render_eq, if_neg long] at printed
      cases printed
    rw [empty, Run.render_eq_nil_iff, none]
    exact and_iff_right short
  · intro suppressed
    rw [Run.render_eq, Report.render_of_total_le (none.mpr suppressed)]
  · intro whole f hf m hm new
    refine ⟨?_, fun error => ⟨?_, ?_⟩⟩
    · rw [ne_eq, Run.render_eq_nil_iff, none]
      intro suppressed
      have old := suppressed.2.2 whole f hf m hm
      rw [new] at old
      cases old
    · exact errors_report_pos_of_new h (Layout.ofFiles_eq_fullFile_iff.mpr whole) hf hm new error
        coloring policy
    · rw [emphasis_eq_red_iff]
      exact ⟨m, List.mem_flatMap.mpr ⟨f, hf, hm⟩, error⟩

/-- No problem is reported for a file with an error on a new line. The report is printed all the
same, and with an error; without the mark, nothing is. -/
theorem suppressed_iff_unreported :
    let error : Finding := { severity := .error, newLine := true }
    let file : FileFindings := ⟨"a".toList, [error], ⟨0, 0, 0, 0⟩, none⟩
    let unmarked : FileFindings := { file with findings := [{ error with newLine := false }] }
    file.counts.Nonneg ∧ unmarked.counts.Nonneg ∧
      Run.render .full .sum [file] ≠ .ok [] ∧
      0 < (Run.report .full .sum [file]).counts.errors ∧
      Run.render .full .sum [unmarked] = .ok [] := by
  intro error file unmarked
  have nonneg : ∀ f ∈ [file], f.counts.Nonneg := by decide
  have nonneg' : ∀ f ∈ [unmarked], f.counts.Nonneg := by decide
  obtain ⟨-, -, shown⟩ := suppressed_iff nonneg .full .sum
  obtain ⟨-, hidden, -⟩ := suppressed_iff nonneg' .full .sum
  have short : ShortPlaces [unmarked] := by decide
  obtain ⟨printed, errors⟩ := shown (by decide) file (by decide) error (by decide) rfl
  exact ⟨by decide, by decide, printed, (errors rfl).1,
    (hidden (by decide)).trans (if_pos short)⟩

end LintReport
