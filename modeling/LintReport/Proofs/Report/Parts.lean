/-
  LintReport.Proofs.Report.Parts — the two parts that a report is merged from.

  In a run of new lines only, all files are the new part and nothing is in the existing one.
  Otherwise the files are split. Either way a report is one merge of the reports on its parts.

  The counts reported for files are taken on trust, and the merge combines each count with the one
  of the same kind. So what is said here about counts is said of every kind at once.

  Proved:
  - `report_eq_merge`: a report is merged from the reports on its parts.
  - `exists_of_mem_parts`: the files of the parts are files of the run, some cut down and counted
    anew.
  - `nonneg_report`: a report has no negative count when no file has one.
-/

import LintReport.Proofs.Report.Layout

namespace LintReport

open Terminal (Coloring)

/-! ## Kinds of counts -/

namespace Counts

def kinds : List (Counts → Int) := [errors, warnings, fixableErrors, fixableWarnings]

theorem errors_mem_kinds : errors ∈ kinds := List.mem_cons_self

theorem warnings_mem_kinds : warnings ∈ kinds := by simp [kinds]

theorem fixableErrors_mem_kinds : fixableErrors ∈ kinds := by simp [kinds]

theorem fixableWarnings_mem_kinds : fixableWarnings ∈ kinds := by simp [kinds]

def Nonneg (c : Counts) : Prop := ∀ count ∈ kinds, 0 ≤ count c

instance : DecidablePred Nonneg := fun c =>
  inferInstanceAs (Decidable (∀ count ∈ kinds, 0 ≤ count c))

/-- Counts are combined kind by kind. -/
theorem count_combine {count : Counts → Int} (h : count ∈ kinds) (f : Int → Int → Int)
    (a b : Counts) : count (combine f a b) = f (count a) (count b) := by
  simp only [kinds, List.mem_cons, List.not_mem_nil, or_false] at h
  rcases h with rfl | rfl | rfl | rfl <;> rfl

theorem count_zero {count : Counts → Int} (h : count ∈ kinds) : count 0 = 0 := by
  simp only [kinds, List.mem_cons, List.not_mem_nil, or_false] at h
  rcases h with rfl | rfl | rfl | rfl <;> rfl

theorem nonneg_iff {c : Counts} :
    c.Nonneg ↔ 0 ≤ c.errors ∧ 0 ≤ c.warnings ∧ 0 ≤ c.fixableErrors ∧ 0 ≤ c.fixableWarnings := by
  simp [Nonneg, kinds]

theorem Nonneg.add {a b : Counts} (ha : a.Nonneg) (hb : b.Nonneg) : (a + b).Nonneg := by
  intro count h
  have := ha count h
  have := hb count h
  rw [add_def, count_combine h]
  omega

theorem nonneg_sum {cs : List Counts} (h : ∀ c ∈ cs, c.Nonneg) : (sum cs).Nonneg := by
  induction cs with
  | nil =>
    intro count hc
    have zero : count (sum []) = 0 := count_zero hc
    omega
  | cons c cs ih =>
    rw [sum_cons]
    exact (h c List.mem_cons_self).add (ih fun d hd => h d (List.mem_cons_of_mem c hd))

/-- Counts that are not negative do not cancel out. -/
theorem count_sum_eq_zero_iff {cs : List Counts} (h : ∀ c ∈ cs, c.Nonneg) {count : Counts → Int}
    (hc : count ∈ kinds) : count (sum cs) = 0 ↔ ∀ c ∈ cs, count c = 0 := by
  induction cs with
  | nil => simp [count_zero hc]
  | cons c cs ih =>
    have rest := ih fun d hd => h d (List.mem_cons_of_mem c hd)
    have first := h c List.mem_cons_self count hc
    have others := nonneg_sum (fun d hd => h d (List.mem_cons_of_mem c hd)) count hc
    rw [sum_cons, add_def, count_combine hc, List.forall_mem_cons, ← rest]
    omega

theorem nonneg_ofFindings (ms : List Finding) : (ofFindings ms).Nonneg := by
  apply nonneg_sum
  intro c hc
  obtain ⟨m, -, rfl⟩ := List.mem_map.mp hc
  unfold one
  cases m.isError <;> cases m.fixable <;> decide

end Counts

/-! ## Merged counts -/

namespace Policy

variable {p : Policy} {a b : Int}

theorem combine_nonneg (ha : 0 ≤ a) (hb : 0 ≤ b) : 0 ≤ p.combine a b := by
  cases p with
  | sum =>
    show 0 ≤ a + b
    omega
  | firstNonzero =>
    simp only [combine]
    split <;> assumption

/-- Neither policy loses all of a count, and neither makes one up. -/
theorem combine_pos (ha : 0 ≤ a) (hb : 0 ≤ b) : 0 < p.combine a b ↔ 0 < a ∨ 0 < b := by
  cases p with
  | sum =>
    show 0 < a + b ↔ _
    omega
  | firstNonzero =>
    simp only [combine]
    split <;> omega

theorem combine_eq_zero_iff (ha : 0 ≤ a) (hb : 0 ≤ b) : p.combine a b = 0 ↔ a = 0 ∧ b = 0 := by
  have := combine_pos (p := p) ha hb
  have := combine_nonneg (p := p) ha hb
  omega

end Policy

/-! ## The parts -/

namespace Run

/-- The files of a run by the part of the report that they make. -/
def parts (files : List FileFindings) : Split :=
  match Scope.ofFiles files with
  | .lineOnly => ⟨files, []⟩
  | .fullFile => Split.ofFiles files

def newPart (coloring : Coloring) (files : List FileFindings) : Report :=
  Report.ofFiles coloring (parts files).new

def existingPart (coloring : Coloring) (files : List FileFindings) : Report :=
  Report.ofFiles coloring (parts files).existing

theorem parts_of_lineOnly {files : List FileFindings} (h : Scope.ofFiles files = .lineOnly) :
    parts files = ⟨files, []⟩ := by
  rw [parts, h]

theorem parts_of_fullFile {files : List FileFindings} (h : Scope.ofFiles files = .fullFile) :
    parts files = Split.ofFiles files := by
  rw [parts, h]

/-- A file of a part is one of the run, or one of the run cut down to some of its findings and
counted anew. -/
theorem exists_of_mem_parts {files : List FileFindings} {f : FileFindings}
    (h : f ∈ (parts files).new ++ (parts files).existing) :
    ∃ g ∈ files, f = g ∨ ∃ ms, ms ⊆ g.findings ∧ f = g.restrict ms := by
  cases scope : Scope.ofFiles files with
  | lineOnly =>
    rw [parts_of_lineOnly scope, List.append_nil] at h
    exact ⟨f, h, .inl rfl⟩
  | fullFile =>
    rw [parts_of_fullFile scope] at h
    rcases List.mem_append.mp h with new | existing
    · obtain ⟨g, hg, part⟩ := List.mem_filterMap.mp new
      unfold FileFindings.newPart? at part
      split at part
      · cases part
        exact ⟨g, hg, .inr ⟨_, List.filter_sublist.subset, rfl⟩⟩
      · cases part
    · obtain ⟨g, hg, rfl⟩ := List.mem_map.mp existing
      unfold FileFindings.existingPart
      split
      · exact ⟨g, hg, .inr ⟨_, List.filter_sublist.subset, rfl⟩⟩
      · exact ⟨g, hg, .inl rfl⟩

/-- A report is merged from the reports on its parts. -/
theorem report_eq_merge (coloring : Coloring) (policy : Policy) (files : List FileFindings) :
    report coloring policy files =
      (newPart coloring files).merge policy (existingPart coloring files)
        (Layout.text coloring files) := by
  rw [← Layout.output_eq_text coloring policy files]
  unfold report newPart existingPart
  cases h : Scope.ofFiles files with
  | lineOnly => rw [parts_of_lineOnly h]; rfl
  | fullFile => rw [parts_of_fullFile h]; rfl

/-- In a run of new lines only there is nothing to merge. -/
theorem report_of_lineOnly {files : List FileFindings} (h : Scope.ofFiles files = .lineOnly)
    (coloring : Coloring) (policy : Policy) :
    report coloring policy files =
      { Report.ofFiles coloring files with
        output := (Report.ofFiles coloring files).output ++ "\n\n".toList } := by
  unfold report
  rw [h]
  exact Report.merge_empty policy _ _

theorem counts_report_eq_combine (coloring : Coloring) (policy : Policy)
    (files : List FileFindings) :
    (report coloring policy files).counts =
      Counts.combine policy.combine (newPart coloring files).counts
        (existingPart coloring files).counts := by
  rw [report_eq_merge]
  rfl

/-- Each count of a report is merged from the counts of that kind in its parts. -/
theorem count_report {count : Counts → Int} (h : count ∈ Counts.kinds) (coloring : Coloring)
    (policy : Policy) (files : List FileFindings) :
    count (report coloring policy files).counts =
      policy.combine (count (newPart coloring files).counts)
        (count (existingPart coloring files).counts) := by
  rw [counts_report_eq_combine, Counts.count_combine h]

end Run

/-! ## Counts that are not negative -/

theorem nonneg_ofFiles {files : List FileFindings} (h : ∀ f ∈ files, f.counts.Nonneg)
    (coloring : Coloring) : (Report.ofFiles coloring files).counts.Nonneg := by
  apply Counts.nonneg_sum
  intro c hc
  obtain ⟨f, hf, rfl⟩ := List.mem_map.mp hc
  exact h f (List.mem_filter.mp hf).1

namespace Run

theorem nonneg_of_mem_parts {files : List FileFindings} (h : ∀ f ∈ files, f.counts.Nonneg) :
    ∀ f ∈ (parts files).new ++ (parts files).existing, f.counts.Nonneg := by
  intro f hf
  obtain ⟨g, hg, rfl | ⟨ms, -, rfl⟩⟩ := exists_of_mem_parts hf
  · exact h f hg
  · exact Counts.nonneg_ofFindings ms

theorem nonneg_newPart {files : List FileFindings} (h : ∀ f ∈ files, f.counts.Nonneg)
    (coloring : Coloring) : (newPart coloring files).counts.Nonneg := by
  apply nonneg_ofFiles
  intro f hf
  exact nonneg_of_mem_parts h f (List.mem_append_left _ hf)

theorem nonneg_existingPart {files : List FileFindings} (h : ∀ f ∈ files, f.counts.Nonneg)
    (coloring : Coloring) : (existingPart coloring files).counts.Nonneg := by
  apply nonneg_ofFiles
  intro f hf
  exact nonneg_of_mem_parts h f (List.mem_append_right _ hf)

theorem nonneg_report {files : List FileFindings} (h : ∀ f ∈ files, f.counts.Nonneg)
    (coloring : Coloring) (policy : Policy) : (report coloring policy files).counts.Nonneg := by
  intro count hc
  rw [count_report hc]
  exact Policy.combine_nonneg (nonneg_newPart h coloring count hc)
    (nonneg_existingPart h coloring count hc)

end Run

end LintReport
