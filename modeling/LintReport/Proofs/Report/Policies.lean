/-
  LintReport.Proofs.Report.Policies — what the choice between the policies changes.

  Both merge the same two parts. One adds the counts of each kind; the other takes the one of the
  new part and falls back on the existing part where that is zero. As long as no count is negative,
  this loses counts and never all of them: a kind that is counted at all is counted under both.

  Proved:
  - `preferred_eq_zero_iff` / `preferred_le` / `preferred_eq`: one kind of counts under both
    policies.
  - `policies_agree`: the policies agree on all of a report but the size of its counts.
-/

import LintReport.Proofs.Report.Parts

namespace LintReport

open Terminal (Coloring)

/-! ## One count -/

namespace Policy

variable {a b : Int}

theorem preferred_eq_zero_iff (ha : 0 ≤ a) (hb : 0 ≤ b) :
    firstNonzero.combine a b = 0 ↔ sum.combine a b = 0 := by
  rw [combine_eq_zero_iff ha hb, combine_eq_zero_iff ha hb]

theorem preferred_le (hb : 0 ≤ b) : firstNonzero.combine a b ≤ sum.combine a b := by
  simp only [combine]
  split <;> omega

/-- Where one part has nothing of a kind, there is nothing to lose. -/
theorem preferred_eq (h : a = 0 ∨ b = 0) : firstNonzero.combine a b = sum.combine a b := by
  rcases h with rfl | rfl
  · rw [zero_combine, zero_combine]
  · rw [combine_zero, combine_zero]

end Policy

/-! ## Reports -/

namespace Run

theorem output_report_policy (p q : Policy) (coloring : Coloring) (files : List FileFindings) :
    (report coloring p files).output = (report coloring q files).output := by
  rw [Layout.output_eq_text, Layout.output_eq_text]

theorem emphasis_report_policy (p q : Policy) (coloring : Coloring) (files : List FileFindings) :
    (report coloring p files).emphasis = (report coloring q files).emphasis := by
  rw [report_eq_merge, report_eq_merge]
  rfl

/-- One kind of counts of a report under both policies, against those of its parts. -/
theorem count_report_policy {files : List FileFindings} (h : ∀ f ∈ files, f.counts.Nonneg)
    {count : Counts → Int} (hc : count ∈ Counts.kinds) (coloring : Coloring) :
    count (report coloring .firstNonzero files).counts ≤
        count (report coloring .sum files).counts ∧
      (count (report coloring .firstNonzero files).counts = 0 ↔
        count (report coloring .sum files).counts = 0) ∧
      (count (newPart coloring files).counts = 0 ∨ count (existingPart coloring files).counts = 0 →
        count (report coloring .firstNonzero files).counts =
          count (report coloring .sum files).counts) := by
  have new := nonneg_newPart h coloring count hc
  have existing := nonneg_existingPart h coloring count hc
  rw [count_report hc, count_report hc]
  exact ⟨Policy.preferred_le existing, Policy.preferred_eq_zero_iff new existing,
    Policy.preferred_eq⟩

theorem count_report_pos_policy {files : List FileFindings} (h : ∀ f ∈ files, f.counts.Nonneg)
    {count : Counts → Int} (hc : count ∈ Counts.kinds) (coloring : Coloring) :
    0 < count (report coloring .firstNonzero files).counts ↔
      0 < count (report coloring .sum files).counts := by
  have := (count_report_policy h hc coloring).2.1
  have := nonneg_report h coloring .sum count hc
  have := nonneg_report h coloring .firstNonzero count hc
  omega

end Run

open Run

/-- The policies agree on all of a report but the size of its counts: on its text and colour, on
which counts are zero, and so on whether it is shown, whether it has errors, and whether anything
can be fixed. -/
theorem policies_agree {files : List FileFindings} (h : ∀ f ∈ files, f.counts.Nonneg)
    (coloring : Coloring) :
    let added := report coloring .sum files
    let preferred := report coloring .firstNonzero files
    preferred.output = added.output ∧ preferred.emphasis = added.emphasis ∧
      (∀ count ∈ Counts.kinds,
        count preferred.counts ≤ count added.counts ∧
        (count preferred.counts = 0 ↔ count added.counts = 0) ∧
        (count (newPart coloring files).counts = 0 ∨
          count (existingPart coloring files).counts = 0 →
            count preferred.counts = count added.counts)) ∧
      ((∃ f ∈ files, f.scope = some .lineOnly) → preferred = added) ∧
      (0 < preferred.total ↔ 0 < added.total) ∧
      (0 < preferred.counts.errors ↔ 0 < added.counts.errors) ∧
      preferred.hasFixable = added.hasFixable := by
  intro added preferred
  have positive {count : Counts → Int} (hc : count ∈ Counts.kinds) :
      0 < count preferred.counts ↔ 0 < count added.counts :=
    count_report_pos_policy h hc coloring
  have errors : 0 < preferred.counts.errors ↔ 0 < added.counts.errors :=
    positive Counts.errors_mem_kinds
  have warnings : 0 < preferred.counts.warnings ↔ 0 < added.counts.warnings :=
    positive Counts.warnings_mem_kinds
  have fixableErrors : 0 < preferred.counts.fixableErrors ↔ 0 < added.counts.fixableErrors :=
    positive Counts.fixableErrors_mem_kinds
  have fixableWarnings : 0 < preferred.counts.fixableWarnings ↔ 0 < added.counts.fixableWarnings :=
    positive Counts.fixableWarnings_mem_kinds
  refine ⟨output_report_policy _ _ coloring files, emphasis_report_policy _ _ coloring files,
    fun count hc => count_report_policy h hc coloring,
    fun lineOnly => ?_, ?_, errors, ?_⟩
  · have scope := Layout.ofFiles_eq_lineOnly_iff.mpr lineOnly
    exact (report_of_lineOnly scope coloring _).trans (report_of_lineOnly scope coloring _).symm
  · have nonneg : preferred.counts.Nonneg := nonneg_report h coloring .firstNonzero
    have nonneg' : added.counts.Nonneg := nonneg_report h coloring .sum
    rw [Counts.nonneg_iff] at nonneg nonneg'
    show 0 < preferred.counts.errors + preferred.counts.warnings ↔
      0 < added.counts.errors + added.counts.warnings
    omega
  · unfold Report.hasFixable
    simp only [gt_iff_lt, fixableErrors, fixableWarnings]

/-- A file that is split and one that is taken over: an error of each part counts once where the new
one is preferred, and the warnings, which are all in one part, count in full. -/
theorem policies_agree_mixed :
    let split : FileFindings := ⟨"a".toList,
      [{ severity := .error, newLine := true }, { severity := .error, fixable := true }],
      ⟨9, 9, 9, 9⟩, none⟩
    let whole : FileFindings := ⟨"b".toList, [{}], ⟨0, 5, 0, 2⟩, none⟩
    let files := [split, whole]
    (∀ f ∈ files, f.counts.Nonneg) ∧
      (report .off .sum files).counts = ⟨2, 5, 1, 2⟩ ∧
      (report .off .firstNonzero files).counts = ⟨1, 5, 1, 2⟩ ∧
      (report .off .firstNonzero files).output = (report .off .sum files).output ∧
      (report .off .firstNonzero files).hasFixable = true := by
  intro split whole files
  have nonneg : ∀ f ∈ files, f.counts.Nonneg := by decide
  obtain ⟨output, -, -, -, -, -, fixable⟩ := policies_agree nonneg .off
  exact ⟨nonneg, by decide, by decide, output, fixable.trans (by decide)⟩

end LintReport
