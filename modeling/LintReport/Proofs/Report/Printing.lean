/-
  LintReport.Proofs.Report.Printing — which reports can be printed, and the text of one that can.

  Only numbers stand in the way of a report: those that are too long to be written. A table has the
  places of its findings in it, and a summary has counts. Each part of a report is what it is without
  regard to their length, whenever all numbers in it are short enough, and otherwise there is one
  error only.

  Proved:
  - `writeTable_eq` / `write_eq`: a table and the report on some files, or the one error there is.
  - `ofReport_eq` / `render_eq`: the summary and the text of a report, or the one error there is.
  - `Run.render_eq`: the printed text of a run, or the one error there is.
-/

import LintReport.Report.Summary
import LintReport.Proofs.Terminal.Paint
import LintReport.Proofs.Text.Numeral

namespace LintReport

open Terminal (Coloring Style)

open Text.Numeral (Short)

/-! ## Tables -/

/-- A list is gone through in full, or stopped at the first item that cannot be taken. -/
theorem mapM_eq_ite {α β ε : Type} {f : α → Except ε β} {g : α → β} {p : α → Prop}
    [DecidablePred p] {e : ε} (each : ∀ x, f x = if p x then .ok (g x) else .error e)
    (xs : List α) : xs.mapM f = if ∀ x ∈ xs, p x then .ok (xs.map g) else .error e := by
  induction xs with
  | nil => rfl
  | cons x xs ih =>
    rw [List.mapM_cons, each, ih]
    by_cases first : p x
    · by_cases rest : ∀ y ∈ xs, p y
      · rw [if_pos first, if_pos rest, if_pos (List.forall_mem_cons.mpr ⟨first, rest⟩)]
        rfl
      · rw [if_pos first, if_neg rest, if_neg fun h => rest (List.forall_mem_cons.mp h).2]
        rfl
    · rw [if_neg first, if_neg fun h => first (List.forall_mem_cons.mp h).1]
      rfl

def Finding.ShortPlace (m : Finding) : Prop := Short m.line ∧ Short m.column

instance : DecidablePred Finding.ShortPlace := fun _ => inferInstanceAs (Decidable (_ ∧ _))

/-- No number in the tables of these files is too long. -/
def ShortPlaces (files : List FileFindings) : Prop := ∀ f ∈ files, ∀ m ∈ f.findings, m.ShortPlace

instance : DecidablePred ShortPlaces := fun files =>
  inferInstanceAs (Decidable (∀ f ∈ files, ∀ m ∈ f.findings, m.ShortPlace))

namespace Section

theorem writeRow_eq (coloring : Coloring) (m : Finding) :
    writeRow coloring m =
      if m.ShortPlace then .ok (row coloring m) else .error .tooLongToWrite := by
  rw [writeRow, Text.Numeral.write_eq, Text.Numeral.write_eq]
  by_cases line : Short m.line
  · by_cases column : Short m.column
    · rw [if_pos line, if_pos column, if_pos ⟨line, column⟩]
      rfl
    · have long : ¬ m.ShortPlace := fun short => column short.2
      rw [if_pos line, if_neg column, if_neg long]
      rfl
  · have long : ¬ m.ShortPlace := fun short => line short.1
    rw [if_neg line, if_neg long]
    rfl

/-- A table is laid out in full unless a number of a place is too long. -/
theorem writeTable_eq (coloring : Coloring) (ms : List Finding) :
    writeTable coloring ms =
      if ∀ m ∈ ms, m.ShortPlace then .ok (table coloring ms) else .error .tooLongToWrite := by
  rw [writeTable, mapM_eq_ite (writeRow_eq coloring)]
  split <;> rfl

theorem writeFile_eq (coloring : Coloring) (f : FileFindings) :
    writeFile coloring f =
      if ∀ m ∈ f.findings, m.ShortPlace then .ok (ofFile coloring f)
      else .error .tooLongToWrite := by
  rw [writeFile, writeTable_eq]
  split <;> rfl

end Section

/-- A file that is not shown has no numbers in a table. -/
theorem shortPlaces_filter_iff (files : List FileFindings) :
    ShortPlaces (files.filter (·.hasFindings)) ↔ ShortPlaces files := by
  constructor
  · intro shown f hf m hm
    have some : f.hasFindings = true := by
      cases found : f.findings with
      | nil => simp [found] at hm
      | cons _ _ => simp [FileFindings.hasFindings, found]
    exact shown f (List.mem_filter.mpr ⟨hf, some⟩) m hm
  · exact fun all f hf => all f (List.mem_filter.mp hf).1

theorem Report.writeFiles_eq (coloring : Coloring) (files : List FileFindings) :
    writeFiles coloring files =
      if ShortPlaces files then .ok (ofFiles coloring files) else .error .tooLongToWrite := by
  rw [writeFiles, mapM_eq_ite (Section.writeFile_eq coloring),
    ← if_congr (shortPlaces_filter_iff files) rfl rfl]
  change (if ShortPlaces _ then _ else _) >>= _ = _
  split <;> rfl

/-- A file that is split has the findings of its two halves. -/
theorem shortPlaces_split_iff (files : List FileFindings) :
    ShortPlaces (Split.ofFiles files).new ∧ ShortPlaces (Split.ofFiles files).existing ↔
      ShortPlaces files := by
  constructor
  · intro parts f hf m hm
    rcases List.mem_append.mp (f.perm_newFindings_oldFindings.mem_iff.mpr hm) with new | old
    · have half : f.newPart? = some (f.restrict f.newFindings) := by
        rw [f.newPart?_eq, if_neg (List.ne_nil_of_mem new)]
      exact parts.1 _ (List.mem_filterMap.mpr ⟨f, hf, half⟩) m new
    · refine parts.2 _ (List.mem_map_of_mem hf) m ?_
      rw [f.findings_existingPart]
      exact old
  · intro all
    refine ⟨?_, ?_⟩
    · intro g hg m hm
      obtain ⟨f, hf, half⟩ := List.mem_filterMap.mp hg
      rw [f.newPart?_eq] at half
      split at half
      · cases half
      · cases half
        exact all f hf m (List.mem_filter.mp hm).1
    · intro g hg m hm
      obtain ⟨f, hf, rfl⟩ := List.mem_map.mp hg
      rw [f.findings_existingPart] at hm
      exact all f hf m (List.mem_filter.mp hm).1

namespace Run

/-- There is a report on some files unless a number in one of its tables is too long. -/
theorem write_eq (coloring : Coloring) (policy : Policy) (files : List FileFindings) :
    write coloring policy files =
      if ShortPlaces files then .ok (report coloring policy files)
      else .error .tooLongToWrite := by
  unfold write report
  cases Scope.ofFiles files with
  | lineOnly =>
    simp only [Report.writeFiles_eq]
    by_cases short : ShortPlaces files <;> simp only [short, if_true, if_false] <;> rfl
  | fullFile =>
    rw [← if_congr (shortPlaces_split_iff files) rfl rfl]
    simp only [Report.writeFiles_eq]
    by_cases new : ShortPlaces (Split.ofFiles files).new
    · by_cases existing : ShortPlaces (Split.ofFiles files).existing <;>
        simp only [new, existing, and_self, and_false, if_true, if_false] <;> rfl
    · simp only [new, false_and, if_false]
      rfl

end Run

/-! ## The wording -/

namespace Counts

def problems (c : Counts) : Int := c.errors + c.warnings

def Fixable (c : Counts) : Prop := 0 < c.fixableErrors ∨ 0 < c.fixableWarnings

instance (c : Counts) : Decidable c.Fixable := inferInstanceAs (Decidable (_ ∨ _))

def Writable (c : Counts) : Prop :=
  Short c.problems ∧ Short c.errors ∧ Short c.warnings ∧
    (c.Fixable → Short c.fixableErrors ∧ Short c.fixableWarnings)

instance (c : Counts) : Decidable c.Writable := inferInstanceAs (Decidable (_ ∧ _))

end Counts

namespace Summary

def phrase (word : String) (count : Int) : Text :=
  Text.Numeral.ofInt count ++ pluralize (' ' :: word.toList) count

def problemText (c : Counts) : Text :=
  "✖ ".toList ++ phrase "problem" c.problems ++ " (".toList ++ phrase "error" c.errors
    ++ ", ".toList ++ phrase "warning" c.warnings ++ ")\n".toList

def fixableText (c : Counts) : Text :=
  "  ".toList ++ phrase "error" c.fixableErrors ++ " and ".toList
    ++ phrase "warning" c.fixableWarnings
    ++ " potentially fixable with the `--fix` option.\n".toList

def lines (coloring : Coloring) (emphasis : Emphasis) (c : Counts) : Text :=
  emphasis.style.paint coloring (problemText c)
    ++ if c.Fixable then emphasis.style.paint coloring (fixableText c) else []

theorem counted_eq (word : String) (n : Int) :
    counted word n = if Short n then .ok (phrase word n) else .error .tooLongToWrite := by
  rw [counted, Text.Numeral.write_eq]
  split <;> rfl

theorem problemLine_eq (r : Report) :
    problemLine r =
      if Short r.counts.problems ∧ Short r.counts.errors ∧ Short r.counts.warnings then
        .ok (problemText r.counts)
      else .error .tooLongToWrite := by
  rw [problemLine, counted_eq, counted_eq, counted_eq]
  change (if Short r.counts.problems then _ else _) >>= _ = _
  by_cases hp : Short r.counts.problems
  · by_cases he : Short r.counts.errors
    · by_cases hw : Short r.counts.warnings <;> simp only [hp, he, hw, if_true, if_false] <;> rfl
    · simp only [hp, he, if_true, if_false]; rfl
  · simp only [hp, if_false]; rfl

theorem fixableLine_eq (r : Report) :
    fixableLine r =
      if Short r.counts.fixableErrors ∧ Short r.counts.fixableWarnings then
        .ok (fixableText r.counts)
      else .error .tooLongToWrite := by
  rw [fixableLine, counted_eq, counted_eq]
  by_cases he : Short r.counts.fixableErrors
  · by_cases hw : Short r.counts.fixableWarnings <;> simp only [he, hw, if_true, if_false] <;> rfl
  · simp only [he, if_false]; rfl

theorem hasFixable_iff (r : Report) : r.hasFixable = true ↔ r.counts.Fixable := by
  simp [Report.hasFixable, Counts.Fixable]

theorem ofReport_eq (coloring : Coloring) (r : Report) :
    ofReport coloring r =
      if r.total ≤ 0 then .ok []
      else if r.counts.Writable then .ok (lines coloring r.emphasis r.counts)
      else .error .tooLongToWrite := by
  rw [ofReport, problemLine_eq, fixableLine_eq]
  split
  · rfl
  · by_cases hp : Short r.counts.problems ∧ Short r.counts.errors ∧ Short r.counts.warnings
    · by_cases hf : r.counts.Fixable
      · have fixable := (hasFixable_iff r).mpr hf
        by_cases hs : Short r.counts.fixableErrors ∧ Short r.counts.fixableWarnings
        · have writable : r.counts.Writable := ⟨hp.1, hp.2.1, hp.2.2, fun _ => hs⟩
          rw [if_pos hp, if_pos hs, if_pos writable, lines, if_pos hf, fixable]
          rfl
        · have unwritable : ¬ r.counts.Writable := fun w => hs (w.2.2.2 hf)
          rw [if_pos hp, if_neg hs, if_neg unwritable, fixable]
          rfl
      · have unfixable : r.hasFixable = false := by
          rw [← Bool.not_eq_true, hasFixable_iff]
          exact hf
        have writable : r.counts.Writable := ⟨hp.1, hp.2.1, hp.2.2, fun h => absurd h hf⟩
        rw [if_pos hp, if_pos writable, lines, if_neg hf, List.append_nil, unfixable]
        rfl
    · have : ¬ r.counts.Writable := fun w => hp ⟨w.1, w.2.1, w.2.2.1⟩
      rw [if_neg hp, if_neg this]; rfl

end Summary

namespace Report

/-- A report with problems is printed with its summary, reset at both ends, unless a number in the
summary is too long. -/
theorem render_eq (coloring : Coloring) (r : Report) :
    r.render coloring =
      if r.total ≤ 0 then .ok []
      else if r.counts.Writable then
        .ok (Style.reset.paint coloring (r.output ++ Summary.lines coloring r.emphasis r.counts))
      else .error .tooLongToWrite := by
  rw [render, Summary.ofReport_eq]
  split
  · rfl
  · split <;> rfl

end Report

theorem Summary.problemText_ne_nil (c : Counts) : problemText c ≠ [] :=
  have closed : ")\n".toList ≠ [] := by decide
  List.append_ne_nil_of_right_ne_nil _ closed

theorem Summary.lines_ne_nil (coloring : Coloring) (e : Emphasis) (c : Counts) :
    lines coloring e c ≠ [] := by
  have first : e.style.paint coloring (problemText c) ≠ [] :=
    Style.paint_ne_nil coloring (by cases e <;> decide) (problemText_ne_nil c)
  unfold lines
  exact List.append_ne_nil_of_left_ne_nil first _

theorem Report.render_eq_nil_iff (coloring : Coloring) (r : Report) :
    r.render coloring = .ok [] ↔ r.total ≤ 0 := by
  constructor
  · intro empty
    rw [render_eq] at empty
    split at empty
    · assumption
    · split at empty
      · have shown := List.append_ne_nil_of_right_ne_nil r.output
          (Summary.lines_ne_nil coloring r.emphasis r.counts)
        have printed : Style.reset.paint coloring _ ≠ [] :=
          Style.paint_ne_nil coloring (by decide) shown
        exact absurd (Except.ok.inj empty) printed
      · cases empty
  · intro none
    exact render_of_total_le none coloring

theorem Report.render_ne_nil_iff {coloring : Coloring} {r : Report} {text : Text}
    (h : r.render coloring = .ok text) : text ≠ [] ↔ 0 < r.total := by
  have empty := render_eq_nil_iff coloring r
  rw [h, Except.ok.injEq] at empty
  rw [ne_eq, empty]
  omega

/-- The text of a run is that of its report, unless a number in one of its tables is too long. -/
theorem Run.render_eq (coloring : Coloring) (policy : Policy) (files : List FileFindings) :
    render coloring policy files =
      if ShortPlaces files then (report coloring policy files).render coloring
      else .error .tooLongToWrite := by
  rw [render, write_eq]
  by_cases none : files = []
  · subst none
    have nothing : (report coloring policy []).render coloring = .ok [] :=
      Report.render_of_total_le (by cases policy <;> exact Int.le_refl 0) coloring
    rw [if_pos rfl, if_pos nofun, nothing]
  · rw [if_neg none]
    split <;> rfl

end LintReport
