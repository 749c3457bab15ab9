/-
  LintReport.Proofs.Report.Filtering — findings filtered by the caller against findings split here.

  A caller that wants the new lines reported alone can leave out all other findings, count anew and
  say that the run holds new lines only. The files without new findings are still handed over, then
  with none at all. What it gets is the new block of the report on the whole files, without the
  banner.

  Proved:
  - `ofFiles_filtered`: the filtered files make the same report as the new part of a split.
  - `report_filtered`: the report on filtered files, and where it stands in the one on whole files.
-/

import LintReport.Proofs.Report.Parts

namespace LintReport

open Terminal (Coloring)

namespace FileFindings

def filtered (f : FileFindings) : FileFindings :=
  { f.restrict f.newFindings with scope := some .lineOnly }

/-- A file that is filtered is reported on as its new part; without one, it is not shown. -/
theorem ofFiles_filtered_one (coloring : Coloring) (f : FileFindings) :
    Report.ofFiles coloring [f.filtered] = Report.ofFiles coloring f.newPart?.toList := by
  rw [newPart?_eq]
  by_cases h : f.newFindings = []
  · have hidden : ¬ f.filtered.hasFindings = true := by
      show ¬ (!f.newFindings.isEmpty) = true
      rw [h]
      exact Bool.false_ne_true
    rw [if_pos h, Report.ofFiles_of_not_hasFindings coloring hidden]
    rfl
  · have shown : f.filtered.hasFindings = true := by
      show (!f.newFindings.isEmpty) = true
      simpa using h
    have shown' : (f.restrict f.newFindings).hasFindings = true := shown
    rw [if_neg h, Option.toList_some, Report.ofFiles_of_hasFindings coloring shown,
      Report.ofFiles_of_hasFindings coloring shown']
    -- A section does not show the scope of its file.
    rfl

theorem ofFiles_filtered (coloring : Coloring) (files : List FileFindings) :
    Report.ofFiles coloring (files.map filtered) =
      Report.ofFiles coloring (Split.ofFiles files).new := by
  induction files with
  | nil => rfl
  | cons f files ih =>
    have split : (Split.ofFiles (f :: files)).new =
        f.newPart?.toList ++ (Split.ofFiles files).new := by
      show (f :: files).filterMap newPart? = _
      rw [List.filterMap_cons]
      cases f.newPart? <;> rfl
    rw [List.map_cons, Report.ofFiles_cons, split, Report.ofFiles_append, ih, ofFiles_filtered_one]

theorem scope_filtered {files : List FileFindings} (h : files ≠ []) :
    Scope.ofFiles (files.map filtered) = .lineOnly := by
  obtain ⟨f, hf⟩ := List.exists_mem_of_ne_nil files h
  apply Layout.ofFiles_eq_lineOnly_iff.mpr
  exact ⟨f.filtered, List.mem_map_of_mem hf, rfl⟩

end FileFindings

theorem Banner.ruled_eq (title body : Text) : ruled title body = ruled title [] ++ body := by
  simp [ruled]

open FileFindings

/-- The report on filtered files has the text of their new part and exactly its counts and colour.
With the banner of the new block before it, it ends the report on the whole files. -/
theorem report_filtered {files : List FileFindings} (nonempty : files ≠ [])
    (whole : ∀ f ∈ files, f.scope ≠ some .lineOnly) (coloring : Coloring) (policy : Policy) :
    let new := Report.ofFiles coloring (Split.ofFiles files).new
    let filtered := Run.report coloring policy (files.map filtered)
    filtered = { new with output := new.output ++ "\n\n".toList } ∧
      ((∃ f ∈ files, ∃ m ∈ f.findings, m.newLine = true) →
        Banner.ruled Banner.newTitle [] ++ filtered.output <:+
          (Run.report coloring policy files).output) := by
  intro new filtered
  have alone : filtered = { new with output := new.output ++ "\n\n".toList } := by
    have merged := Run.report_of_lineOnly (scope_filtered nonempty) coloring policy
    rw [ofFiles_filtered] at merged
    exact merged
  refine ⟨alone, fun marked => ?_⟩
  have body : new.output = Layout.body coloring (Layout.ofKind Layout.marked files) := by
    rw [Layout.output_ofFiles, Layout.ofKind_new]
  have unfiltered : ¬ ∃ f ∈ files, f.scope = some .lineOnly := by simpa using whole
  have block : Banner.ruled Banner.newTitle [] ++ filtered.output =
      Layout.newBlock coloring files := by
    rw [alone, Layout.newBlock, if_pos marked, Banner.ruled_eq Banner.newTitle (Layout.body _ _)]
    simp only [body, List.append_assoc]
  rw [block, Layout.output_eq_text, Layout.text, if_neg unfiltered]
  exact List.suffix_append _ _

/-- A file that is split, and one without new findings. -/
theorem report_filtered_two :
    let split : FileFindings := ⟨"a".toList, [{ severity := .error, newLine := true }, {}],
      ⟨9, 9, 9, 9⟩, none⟩
    let old : FileFindings := ⟨"b".toList, [{}], ⟨0, 1, 0, 0⟩, some .fullFile⟩
    let files := [split, old]
    files ≠ [] ∧ (∀ f ∈ files, f.scope ≠ some .lineOnly) ∧
      (Run.report .full .sum (files.map filtered)).counts = ⟨1, 0, 0, 0⟩ ∧
      Banner.ruled Banner.newTitle [] ++ (Run.report .full .sum (files.map filtered)).output <:+
        (Run.report .full .sum files).output := by
  intro split old files
  have nonempty : files ≠ [] := List.cons_ne_nil _ _
  have whole : ∀ f ∈ files, f.scope ≠ some .lineOnly := by decide
  obtain ⟨alone, ends⟩ := report_filtered nonempty whole .full .sum
  have marked : ∃ f ∈ files, ∃ m ∈ f.findings, m.newLine = true := by decide
  refine ⟨nonempty, whole, ?_, ends marked⟩
  rw [alone]
  decide

end LintReport
