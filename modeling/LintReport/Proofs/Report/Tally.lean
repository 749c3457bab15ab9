/-
  LintReport.Proofs.Report.Tally — the counts of a report against the findings of the run.

  A file is truthful when the counts reported for it are those of its findings; about a file
  without findings nothing is asked, since it is left out. Cutting truthful files down to new or
  existing findings leaves truthful files, and what is cut out of the one list is in the other, so
  whichever way a report is made it counts each finding once.

  Proved:
  - `counts_ofFiles`: the counts of a report on truthful files are those of their findings.
  - `perm_findings_split`: splitting files shares out their findings.
  - `counts_truthful`: with added counts the numbers of a report, its colour and its summary are
    those of the findings, whatever their marks, the scopes and the order of the files; under both
    policies there are errors exactly if a finding is one.
-/

import LintReport.Proofs.Report.Parts
import LintReport.Proofs.Report.Printing

namespace LintReport

open Terminal (Coloring)

/-! ## Counting findings -/

namespace Counts

def tally (ms : List Finding) : Counts where
  errors := ms.countP fun m => m.isError
  warnings := ms.countP fun m => !m.isError
  fixableErrors := ms.countP fun m => m.isError && m.fixable
  fixableWarnings := ms.countP fun m => !m.isError && m.fixable

theorem tally_cons (m : Finding) (ms : List Finding) : tally (m :: ms) = one m + tally ms := by
  simp only [tally, one, add_def, combine, List.countP_cons]
  cases m.isError <;> cases m.fixable <;> simp <;> omega

theorem ofFindings_eq_tally (ms : List Finding) : ofFindings ms = tally ms := by
  induction ms with
  | nil => rfl
  | cons m ms ih => rw [tally_cons, ← ih]; rfl

@[simp] theorem tally_nil : tally [] = 0 := rfl

theorem tally_append (ms ns : List Finding) : tally (ms ++ ns) = tally ms + tally ns := by
  rw [← ofFindings_eq_tally, ofFindings_append, ofFindings_eq_tally, ofFindings_eq_tally]

theorem tally_perm {ms ns : List Finding} (h : ms.Perm ns) : tally ms = tally ns := by
  simp only [tally, h.countP_eq]

theorem tally_map {g : Finding → Finding} (hError : ∀ m, (g m).isError = m.isError)
    (hFix : ∀ m, (g m).fixable = m.fixable) (ms : List Finding) :
    tally (ms.map g) = tally ms := by
  simp [tally, List.countP_map, Function.comp_def, hError, hFix]

theorem errors_tally_pos {ms : List Finding} :
    0 < (tally ms).errors ↔ ∃ m ∈ ms, m.isError = true := by
  simp [tally, List.countP_pos_iff]

/-- No count of findings, nor errors and warnings together, exceeds their number. -/
theorem tally_bounds (ms : List Finding) :
    (0 ≤ (tally ms).errors ∧ 0 ≤ (tally ms).warnings) ∧
      ((tally ms).problems = ms.length ∧ (tally ms).fixableErrors ≤ ms.length ∧
        (tally ms).fixableWarnings ≤ ms.length) ∧
      0 ≤ (tally ms).fixableErrors ∧ 0 ≤ (tally ms).fixableWarnings := by
  have all := List.length_eq_countP_add_countP (fun m : Finding => m.isError) (l := ms)
  have e := List.countP_le_length (p := fun m : Finding => m.isError && m.fixable) (l := ms)
  have w := List.countP_le_length (p := fun m : Finding => !m.isError && m.fixable) (l := ms)
  simp only [tally, problems, Bool.not_eq_true, ← Bool.not_eq_true'] at all ⊢
  simp only [Bool.decide_eq_true] at all
  omega

/-- The counts of so few findings can all be written. -/
theorem writable_tally {ms : List Finding} (h : Text.Numeral.Short ms.length) :
    (tally ms).Writable := by
  obtain ⟨⟨e, w⟩, ⟨hp, hfe, hfw⟩, fe, fw⟩ := tally_bounds ms
  have sum : (tally ms).errors + (tally ms).warnings = ms.length := hp
  have short {n : Int} (h0 : 0 ≤ n) (hn : n ≤ ms.length) := Text.Numeral.short_of_le h0 hn h
  exact ⟨hp ▸ h, short e (by omega), short w (by omega), fun _ => ⟨short fe hfe, short fw hfw⟩⟩

end Counts

/-! ## Truthful files -/

namespace FileFindings

/-- The counts reported for a file with findings are those of its findings. -/
def Truthful (f : FileFindings) : Prop := f.findings ≠ [] → f.counts = Counts.tally f.findings

instance : DecidablePred Truthful := fun f =>
  inferInstanceAs (Decidable (f.findings ≠ [] → f.counts = Counts.tally f.findings))

def allFindings (files : List FileFindings) : List Finding := files.flatMap (·.findings)

theorem truthful_restrict (f : FileFindings) (ms : List Finding) : (f.restrict ms).Truthful :=
  fun _ => Counts.ofFindings_eq_tally ms

end FileFindings

open FileFindings

theorem truthful_new (files : List FileFindings) : ∀ f ∈ (Split.ofFiles files).new, f.Truthful := by
  intro f hf
  obtain ⟨g, -, hg⟩ := List.mem_filterMap.mp hf
  rw [newPart?_eq] at hg
  split at hg
  · cases hg
  · cases hg
    exact truthful_restrict g _

theorem truthful_of_mem_parts {files : List FileFindings} (h : ∀ f ∈ files, f.Truthful) :
    ∀ f ∈ (Run.parts files).new ++ (Run.parts files).existing, f.Truthful := by
  intro f hf
  obtain ⟨g, hg, rfl | ⟨ms, -, rfl⟩⟩ := Run.exists_of_mem_parts hf
  · exact h f hg
  · exact truthful_restrict g ms

theorem allFindings_new (files : List FileFindings) :
    allFindings (Split.ofFiles files).new = (allFindings files).filter (·.newLine) := by
  simp only [allFindings, Split.ofFiles, List.filter_flatMap]
  induction files with
  | nil => rfl
  | cons f files ih =>
    rw [List.filterMap_cons, newPart?_eq]
    by_cases h : f.newFindings = []
    · have : f.findings.filter (·.newLine) = [] := h
      simp [h, ih, this]
    · simp only [h, if_false, List.flatMap_cons, ih]
      rfl

theorem allFindings_existing (files : List FileFindings) :
    allFindings (Split.ofFiles files).existing = (allFindings files).filter (!·.newLine) := by
  simp only [allFindings, Split.ofFiles, List.filter_flatMap, List.flatMap_map,
    findings_existingPart]
  rfl

/-- Splitting files shares out their findings. -/
theorem perm_findings_split (files : List FileFindings) :
    (allFindings (Split.ofFiles files).new ++ allFindings (Split.ofFiles files).existing).Perm
      (allFindings files) := by
  rw [allFindings_new, allFindings_existing]
  exact List.filter_append_perm (fun m : Finding => m.newLine) (allFindings files)

theorem perm_findings_parts (files : List FileFindings) :
    (allFindings (Run.parts files).new ++ allFindings (Run.parts files).existing).Perm
      (allFindings files) := by
  cases scope : Scope.ofFiles files with
  | lineOnly =>
    rw [Run.parts_of_lineOnly scope]
    show (allFindings files ++ []).Perm _
    rw [List.append_nil]
  | fullFile =>
    rw [Run.parts_of_fullFile scope]
    exact perm_findings_split files

/-! ## The counts of a report -/

theorem counts_ofFiles {files : List FileFindings} (h : ∀ f ∈ files, f.Truthful)
    (coloring : Coloring) :
    (Report.ofFiles coloring files).counts = Counts.tally (allFindings files) := by
  induction files with
  | nil => rfl
  | cons f files ih =>
    have one : (Report.ofFiles coloring [f]).counts = Counts.tally f.findings := by
      by_cases hf : f.findings = []
      · simp [Report.ofFiles, hasFindings, hf]
      · simp [Report.ofFiles, hasFindings, hf, h f List.mem_cons_self hf]
    rw [Report.ofFiles_cons, Report.append, one, ih fun g hg => h g (List.mem_cons_of_mem f hg)]
    exact (Counts.tally_append _ _).symm

theorem emphasis_ofFiles (coloring : Coloring) (files : List FileFindings) :
    (Report.ofFiles coloring files).emphasis =
      .ofError ((allFindings files).any (·.isError)) := by
  induction files with
  | nil => rfl
  | cons f files ih =>
    have one : (Report.ofFiles coloring [f]).emphasis =
        .ofError (f.findings.any (·.isError)) := by
      by_cases hf : f.findings = [] <;> simp [Report.ofFiles, hasFindings, hasErrors, hf]
    rw [Report.ofFiles_cons, Report.append, one, ih, ← Emphasis.ofError_or, ← List.any_append]
    rfl

theorem emphasis_report (coloring : Coloring) (policy : Policy) (files : List FileFindings) :
    (Run.report coloring policy files).emphasis =
      .ofError ((allFindings files).any (·.isError)) := by
  have joined : (Run.report coloring policy files).emphasis =
      (Run.newPart coloring files).emphasis.join (Run.existingPart coloring files).emphasis := by
    rw [Run.report_eq_merge]
    rfl
  rw [joined, Run.newPart, Run.existingPart, emphasis_ofFiles, emphasis_ofFiles,
    ← Emphasis.ofError_or, ← List.any_append, (perm_findings_parts files).any_eq]

/-- The two parts of which a report on truthful files is merged. -/
theorem counts_report {files : List FileFindings} (h : ∀ f ∈ files, f.Truthful)
    (coloring : Coloring) (policy : Policy) :
    ∃ new existing : List Finding, (new ++ existing).Perm (allFindings files) ∧
      (Run.report coloring policy files).counts =
        Counts.combine policy.combine (Counts.tally new) (Counts.tally existing) := by
  have truthful := truthful_of_mem_parts h
  have new := counts_ofFiles (fun f hf => truthful f (List.mem_append_left _ hf)) coloring
  have existing := counts_ofFiles (fun f hf => truthful f (List.mem_append_right _ hf)) coloring
  refine ⟨_, _, perm_findings_parts files, ?_⟩
  rw [Run.counts_report_eq_combine, Run.newPart, Run.existingPart, new, existing]

theorem counts_report_sum {files : List FileFindings} (h : ∀ f ∈ files, f.Truthful)
    (coloring : Coloring) :
    (Run.report coloring .sum files).counts = Counts.tally (allFindings files) := by
  obtain ⟨new, existing, hperm, hcounts⟩ := counts_report h coloring .sum
  rw [hcounts, ← Counts.tally_perm hperm, Counts.tally_append]
  rfl

theorem errors_report_pos {files : List FileFindings} (h : ∀ f ∈ files, f.Truthful)
    (coloring : Coloring) (policy : Policy) :
    0 < (Run.report coloring policy files).counts.errors ↔
      ∃ m ∈ allFindings files, m.isError = true := by
  obtain ⟨new, existing, hperm, hcounts⟩ := counts_report h coloring policy
  rw [hcounts]
  change 0 < policy.combine (Counts.tally new).errors (Counts.tally existing).errors ↔ _
  rw [Policy.combine_pos (Counts.tally_bounds new).1.1 (Counts.tally_bounds existing).1.1,
    Counts.errors_tally_pos, Counts.errors_tally_pos]
  simp only [← hperm.mem_iff, List.mem_append, or_and_right, exists_or]

/-! ## Marks, scopes and order -/

namespace FileFindings

/-- The file without its scope and the marks on its findings. -/
def bare (f : FileFindings) : FileFindings :=
  { f with findings := f.findings.map fun m => { m with newLine := false }, scope := none }

/-- The same files but for their order, their scopes and the marks on their findings. -/
def Rearranged (files others : List FileFindings) : Prop :=
  (files.map bare).Perm (others.map bare)

theorem tally_bare (f : FileFindings) :
    Counts.tally f.bare.findings = Counts.tally f.findings := by
  have error (m : Finding) : { m with newLine := false }.isError = m.isError := rfl
  exact Counts.tally_map error (fun _ => rfl) f.findings

theorem truthful_bare_iff (f : FileFindings) : f.bare.Truthful ↔ f.Truthful := by
  unfold Truthful
  rw [tally_bare]
  simp [bare]

theorem tally_map_bare (files : List FileFindings) :
    Counts.tally (allFindings (files.map bare)) = Counts.tally (allFindings files) := by
  induction files with
  | nil => rfl
  | cons f files ih =>
    rw [List.map_cons]
    change Counts.tally (f.bare.findings ++ allFindings (files.map bare)) =
      Counts.tally (f.findings ++ allFindings files)
    rw [Counts.tally_append, Counts.tally_append, tally_bare, ih]

theorem truthful_of_rearranged {files others : List FileFindings} (h : Rearranged files others)
    (hf : ∀ f ∈ files, f.Truthful) : ∀ g ∈ others, g.Truthful := by
  intro g hg
  obtain ⟨f, hfiles, hbare⟩ := List.mem_map.mp (h.mem_iff.mpr (List.mem_map_of_mem hg))
  rw [← truthful_bare_iff, ← hbare, truthful_bare_iff]
  exact hf f hfiles

theorem tally_of_rearranged {files others : List FileFindings} (h : Rearranged files others) :
    Counts.tally (allFindings others) = Counts.tally (allFindings files) := by
  rw [← tally_map_bare others, ← tally_map_bare files]
  exact Counts.tally_perm (h.symm.flatMap_right _)

end FileFindings

theorem emphasis_eq_red_iff (coloring : Coloring) (policy : Policy) (files : List FileFindings) :
    (Run.report coloring policy files).emphasis = .red ↔
      ∃ m ∈ allFindings files, m.isError = true := by
  rw [emphasis_report, ← List.any_eq_true]
  cases (allFindings files).any (·.isError) <;> simp [Emphasis.ofError]

theorem emphasis_of_rearranged {files others : List FileFindings} (h : Rearranged files others)
    (coloring coloring' : Coloring) (policy : Policy) :
    (Run.report coloring' policy others).emphasis =
      (Run.report coloring policy files).emphasis := by
  have red : (Run.report coloring' policy others).emphasis = .red ↔
      (Run.report coloring policy files).emphasis = .red := by
    rw [emphasis_eq_red_iff, emphasis_eq_red_iff, ← Counts.errors_tally_pos,
      ← Counts.errors_tally_pos, tally_of_rearranged h]
  revert red
  cases (Run.report coloring' policy others).emphasis <;>
    cases (Run.report coloring policy files).emphasis <;> simp

/-! ## The summary -/

def Summary.plain (c : Counts) : Text :=
  Summary.problemText c ++ if c.Fixable then Summary.fixableText c else []

theorem render_truthful {files : List FileFindings} (h : ∀ f ∈ files, f.Truthful) :
    Run.render .off .sum files =
      if allFindings files = [] then .ok []
      else if ShortPlaces files ∧ (Counts.tally (allFindings files)).Writable then
        .ok ((Run.report .off .sum files).output ++
          Summary.plain (Counts.tally (allFindings files)))
      else .error .tooLongToWrite := by
  have total : (Run.report .off .sum files).total = (allFindings files).length := by
    rw [Report.total, counts_report_sum h]
    exact (Counts.tally_bounds _).2.1.1
  rw [Run.render_eq, Report.render_eq, total, counts_report_sum h]
  by_cases hall : allFindings files = []
  · have short : ShortPlaces files := by
      intro f hf m hm
      have listed : m ∈ allFindings files := List.mem_flatMap.mpr ⟨f, hf, hm⟩
      rw [hall] at listed
      cases listed
    rw [if_pos short, if_pos hall, hall]
    rfl
  · have some : ¬ ((allFindings files).length : Int) ≤ 0 := by
      have := List.length_pos_iff.mpr hall
      omega
    rw [if_neg some, if_neg hall]
    by_cases short : ShortPlaces files
    · rw [if_pos short]
      exact if_congr (by simp only [short, true_and]) rfl rfl
    · rw [if_neg short, if_neg fun both => short both.1]

/-- The numbers of a report on truthful files, with added counts, are those of the findings, and
it is red if one of them is an error. So marks, scopes and the order of the files do not matter
for them. Its text ends in the summary with these numbers. Under both policies there are errors
exactly if a finding is one. -/
theorem counts_truthful {files : List FileFindings} (h : ∀ f ∈ files, f.Truthful) :
    (∀ coloring,
      (Run.report coloring .sum files).counts = Counts.tally (allFindings files) ∧
      ((Run.report coloring .sum files).emphasis = .red ↔
        ∃ m ∈ allFindings files, m.isError = true)) ∧
    (∀ others, Rearranged files others → ∀ coloring coloring',
      (Run.report coloring' .sum others).counts = (Run.report coloring .sum files).counts ∧
      (Run.report coloring' .sum others).emphasis = (Run.report coloring .sum files).emphasis) ∧
    (∀ text, Run.render .off .sum files = .ok text → text ≠ [] →
      text = (Run.report .off .sum files).output
        ++ Summary.plain (Counts.tally (allFindings files))) ∧
    (ShortPlaces files → Text.Numeral.Short (allFindings files).length →
      ∃ text, Run.render .off .sum files = .ok text ∧ (text = [] ↔ allFindings files = [])) ∧
    (∀ coloring policy,
      0 < (Run.report coloring policy files).counts.errors ↔
        ∃ m ∈ allFindings files, m.isError = true) := by
  refine ⟨fun coloring => ⟨counts_report_sum h coloring, emphasis_eq_red_iff coloring .sum files⟩,
    fun others hr coloring coloring' => ⟨?_, ?_⟩, fun text ht hne => ?_, fun hplaces hshort => ?_,
    errors_report_pos h⟩
  · rw [counts_report_sum h, counts_report_sum (truthful_of_rearranged hr h),
      tally_of_rearranged hr]
  · exact emphasis_of_rearranged hr coloring coloring' .sum
  · rw [render_truthful h] at ht
    split at ht
    · cases ht
      exact absurd rfl hne
    · split at ht <;> cases ht
      rfl
  · have writable : ShortPlaces files ∧ (Counts.tally (allFindings files)).Writable :=
      ⟨hplaces, Counts.writable_tally hshort⟩
    rw [render_truthful h, if_pos writable]
    by_cases hall : allFindings files = []
    · exact ⟨[], if_pos hall, by simp [hall]⟩
    · have shown : Summary.plain (Counts.tally (allFindings files)) ≠ [] :=
        List.append_ne_nil_of_left_ne_nil (Summary.problemText_ne_nil _) _
      exact ⟨_, if_neg hall,
        iff_of_false (List.append_ne_nil_of_right_ne_nil _ shown) hall⟩

/-- A file that is split, one that is taken over and one without findings, whose counts are made
up; the same files in another order with no marks and on new lines only. -/
theorem counts_truthful_mixed :
    let split : FileFindings := ⟨"a".toList,
      [{ severity := .error, fixable := true, newLine := true }, {}], ⟨1, 1, 1, 0⟩, none⟩
    let whole : FileFindings := ⟨"b".toList, [{ fatal := true }], ⟨1, 0, 0, 0⟩, some .fullFile⟩
    let empty : FileFindings := ⟨"c".toList, [], ⟨7, 7, 7, 7⟩, none⟩
    let files := [split, whole, empty]
    let others := [empty, whole, { split.bare with scope := some .lineOnly }]
    (∀ f ∈ files, f.Truthful) ∧ Rearranged files others ∧
      (Run.report .full .sum others).counts = (Run.report .off .sum files).counts ∧
      (Run.report .off .sum files).counts = ⟨2, 1, 1, 0⟩ ∧
      Run.render .off .sum files = .ok ((Run.report .off .sum files).output ++
        ("✖ 3 problems (2 errors, 1 warning)\n".toList ++
          "  1 error and 0 warnings potentially fixable with the `--fix` option.\n".toList)) ∧
      0 < (Run.report .off .firstNonzero files).counts.errors := by
  intro split whole empty files others
  have truthful : ∀ f ∈ files, f.Truthful := by decide
  have rearranged : Rearranged files others := (List.reverse_perm (files.map bare)).symm
  obtain ⟨numbers, arrangement, summary, printed, errors⟩ := counts_truthful truthful
  obtain ⟨text, htext, hempty⟩ := printed (by decide) (by decide)
  have hne : text ≠ [] := fun h => absurd (hempty.mp h) (by decide)
  refine ⟨truthful, rearranged, (arrangement others rearranged .off .full).1,
    (numbers .off).1.trans (by decide), ?_, (errors .off .firstNonzero).mpr (by decide)⟩
  rw [htext, summary text htext hne]
  congr 2
  decide

end LintReport
