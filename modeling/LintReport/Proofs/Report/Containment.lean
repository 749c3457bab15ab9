/-
  LintReport.Proofs.Report.Containment — a printed report keeps its attributes to itself.

  Paths, texts and rules are printed as they are, with whatever control sequences they hold. They
  may set an attribute and never reset it, reset what the report has set, or break a sequence off at
  the end of a line. The report is painted in the full reset as a whole, summary included, and that
  mends all of it: each line begins and ends with no attribute set, and so does the report.

  Proved:
  - `unstyled_printed`: a printed report shows what it shows without colours.
  - `report_confined`: no attribute is set around its line breaks, nor behind it, on any terminal.
-/

import LintReport.Proofs.Report.Styling
import LintReport.Proofs.Terminal.Pen

namespace LintReport

open Terminal

namespace Report

/-- A printed report shows its text and summary without the control sequences in them. -/
theorem unstyled_printed (r : Report) :
    unstyled (Style.reset.paint .full (r.output ++ Summary.lines .full r.emphasis r.counts)) =
      unstyled (r.output ++ Summary.lines .off r.emphasis r.counts) := by
  rw [Style.unstyled_paint, Summary.fresh_lines .full, Summary.fresh_lines .off,
    (Summary.alike_lines .full .off r.emphasis r.counts).shown]

/-- A report with problems, whatever its text, is printed so that on every terminal no attribute is
set before and behind each line break, nor behind the report; what is shown is its text and its
summary. Only counts that are too long to be written stand in the way. -/
theorem report_confined {σ : Type} (d : Device σ) {r : Report} (problems : 0 < r.total) :
    (r.counts.Writable → ∃ text, r.render .full = .ok text ∧ d.Confined text ∧
      ∀ start, (d.cells start text).map Prod.fst =
        unstyled (r.output ++ Summary.lines .off r.emphasis r.counts)) ∧
      (¬ r.counts.Writable → r.render .full = .error .tooLongToWrite) := by
  have some : ¬ r.total ≤ 0 := by omega
  refine ⟨fun writable => ?_, fun unwritable => ?_⟩
  · refine ⟨_, by rw [render_eq, if_neg some, if_pos writable], d.confined_paint_reset _, ?_⟩
    intro start
    rw [d.map_fst_cells, unstyled_printed]
  · rw [render_eq, if_neg some, if_neg unwritable]

/-- A path that sets a colour before a line break and an underline behind it, a piece between two
resets, and a sequence broken off at the end: the colour is still set at the line break of the text
of the report, but not in print. -/
theorem report_confined_open :
    let r : Report :=
      { output := code 31 ++ "a\r\n".toList ++ code 4 ++ Style.fullReset ++ "b".toList
          ++ Style.fullReset ++ code 1 ++ ['\n', esc, '[', '3']
        counts := ⟨1, 0, 0, 0⟩
        emphasis := .red }
    Pen.device.state Pen.plain (code 31 ++ "a".toList) = { color := some 31 } ∧ 0 < r.total ∧
      ∃ text, r.render .full = .ok text ∧ Pen.device.Confined text ∧
        ∀ more, Pen.device.cells Pen.plain (text ++ more) =
          Pen.device.cells Pen.plain text ++ Pen.device.cells Pen.plain more := by
  intro r
  have problems : 0 < r.total := by decide
  obtain ⟨text, printed, confined, -⟩ := (report_confined Pen.device problems).1 (by decide)
  exact ⟨by decide, problems, text, printed, confined, fun more => confined.rest _ more⟩

end Report

end LintReport
