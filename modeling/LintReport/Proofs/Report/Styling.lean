/-
  LintReport.Proofs.Report.Styling — styles do not count where texts are measured.

  A table measures its cells after they are painted, and a painted cell holds codes anywhere: at
  both ends, at each line break, behind each code that would end the style. Whatever the cell
  itself holds, none of them can be seen, so that columns are as wide with colours as without.

  The same goes for what is printed as a whole. A summary is fresh: it begins with a code or with
  its glyph, and no sequence that the text before it breaks off goes on over either. So even a
  report that ends within a sequence shows the same in both.

  Proved:
  - `map_unstyled_row`: the cells of a row show the same whatever the colours are.
  - `unstyled_format`: so do log records.
  - `fresh_lines` / `map_unstyled_render`: so do reports, whatever their text is.
  - `styling_invisible`: no style can be seen or measured, in whatever text.
-/

import LintReport.Log.Logger
import LintReport.Proofs.Report.Coloring

namespace LintReport

open Terminal

/-! ## Cells -/

namespace Section

theorem unstyled_ruleCell (a b : Coloring) (m : Finding) :
    unstyled (ruleCell a m) = unstyled (ruleCell b m) := by
  unfold ruleCell
  split
  · rfl
  · rfl
  · rw [Style.unstyled_paint, Style.unstyled_paint]

/-- The cells of a row show the same whatever the colours are. -/
theorem map_unstyled_row (a b : Coloring) (m : Finding) :
    (row a m).map unstyled = (row b m).map unstyled := by
  simp only [row, List.map_cons, List.map_nil, labelCell, Style.unstyled_paint,
    unstyled_ruleCell a b]

end Section

/-! ## Log records -/

theorem Log.Record.unstyled_format (coloring : Coloring) (layout : Log.Layout) (r : Log.Record) :
    unstyled (r.format coloring layout) = unstyled (r.plain layout) := Style.unstyled_paint _ _ _

/-! ## Reports -/

namespace Summary

/-- No sequence goes on into a summary: it begins with a code or with its glyph. -/
theorem fresh_lines (coloring : Coloring) (e : Emphasis) (c : Counts) :
    Fresh (lines coloring e c) := by
  have glyph : ∃ rest, problemText c = '✖' :: rest := ⟨_, rfl⟩
  obtain ⟨rest, text⟩ := glyph
  -- With colours the first code of the style stands before the glyph, and it is fresh as well.
  cases coloring with
  | off =>
    rw [lines, Style.paint_off, text]
    exact fresh_cons (by decide) _
  | full =>
    obtain ⟨a, style, chain⟩ := List.exists_cons_of_ne_nil e.style_ne_nil
    rw [lines, chain]
    exact fresh_cons barrier_esc _

end Summary

/-- The printed text of a report shows the same whatever the colours are, even where the text of
the report breaks a sequence off. -/
theorem Report.map_unstyled_render (a b : Coloring) (r : Report) :
    (r.render a).map unstyled = (r.render b).map unstyled := by
  have summary : unstyled (r.output ++ Summary.lines a r.emphasis r.counts) =
      unstyled (r.output ++ Summary.lines b r.emphasis r.counts) := by
    rw [Summary.fresh_lines a, Summary.fresh_lines b,
      (Summary.alike_lines a b r.emphasis r.counts).shown]
  rw [render_eq, render_eq]
  split
  · rfl
  · split
    · simp only [Except.map, Style.unstyled_paint, summary]
    · rfl

/-- No style can be seen: whatever pieces are painted together, and whatever control sequences they
hold, complete or not, they show and measure what they do unpainted. So columns are as wide with
colours as without, and cells, log records and reports show the same. -/
theorem styling_invisible (coloring : Coloring) :
    (∀ (style : Style) (separator : Text) (pieces : List Text),
      let text := Text.join separator pieces
      unstyled (style.paint coloring text) = unstyled text ∧
        visibleLength (style.paint coloring text) = visibleLength text) ∧
      (∀ m : Finding, (Section.row coloring m).map unstyled = (Section.row .off m).map unstyled) ∧
      (∀ ms : List Finding, Table.widths visibleLength (ms.map (Section.row coloring)) =
        Table.widths visibleLength (ms.map (Section.row .off))) ∧
      (∀ layout (r : Log.Record),
        unstyled (r.format coloring layout) = unstyled (r.plain layout)) ∧
      ∀ r : Report, (r.render coloring).map unstyled = (r.render .off).map unstyled := by
  refine ⟨fun style separator pieces => ?_, Section.map_unstyled_row coloring .off,
    Section.widths_eq coloring, Log.Record.unstyled_format coloring,
    Report.map_unstyled_render coloring .off⟩
  exact ⟨Style.unstyled_paint coloring style _, Style.visibleLength_paint coloring style _⟩

end LintReport
