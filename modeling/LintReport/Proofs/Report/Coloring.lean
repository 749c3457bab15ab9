/-
  LintReport.Proofs.Report.Coloring — colours change nothing of a report but its codes.

  The report with colours and the one without are compared piece by piece. Two pieces are alike when
  they show the same and no control sequence goes on behind them, and pieces that are alike can be
  put together. A path may hold anything, even the beginning of a sequence, but the line feed behind
  it ends that. The texts and rules of the findings stand next to codes, and so must be plain; and a
  blank at the end of a rule would be cut off only where no code follows it.

  Proved:
  - `alike_lineOf` / `alike_ofFindings` / `alike_text`: lines, sections and layouts are alike.
  - `unstyled_render`: the printed text shows the same whatever the colours are.
-/

import LintReport.Proofs.Report.Layout
import LintReport.Proofs.Report.Printing
import LintReport.Proofs.Report.Rows

namespace LintReport

open Terminal

/-- Text and rule are plain, and the rule does not end in a blank. -/
structure Finding.Legible (m : Finding) : Prop extends m.Plain where
  ending : ∀ r, m.rule = some r → ∀ c ∈ r.getLast?, Text.isBlank c = false

/-! ## Sections -/

namespace Section

variable (a b : Coloring)

theorem esc_not_mem_filler {ws : List Nat} {j : Nat} {cell : Text} : esc ∉ filler ws j cell :=
  fun h => absurd (eq_space_of_mem_filler h) (by decide)

theorem esc_not_mem_separator : esc ∉ separator := by decide

theorem esc_not_mem_message (ws : List Nat) {m : Finding} (h : m.Plain) : esc ∉ message ws m := by
  have text : esc ∉ dropPeriod m.text := fun c => h.text.1 ((prefix_dropPeriod _).mem c)
  simp only [message, List.mem_append, esc_not_mem_filler, esc_not_mem_separator, text, or_self,
    not_false_eq_true]

/-- What follows the label. A rule keeps trimming off the spaces before it; without one they are
cut off, with and without colours. -/
theorem alike_trimRight_rule (ws : List Nat) {m : Finding} (h : m.Legible) :
    Alike (Text.trimRight (message ws m ++ ruleCell a m))
      (Text.trimRight (message ws m ++ ruleCell b m)) := by
  have plain := esc_not_mem_message ws h.toPlain
  have bare :
      Alike (Text.trimRight (message ws m ++ [])) (Text.trimRight (message ws m ++ [])) := by
    rw [List.append_nil]
    exact Alike.of_plain fun c => plain ((Text.prefix_trimRight _).mem c)
  cases hr : m.rule with
  | none => simpa only [ruleCell, hr] using bare
  | some r =>
    cases r with
    | nil => simpa only [ruleCell, hr] using bare
    | cons c r =>
      have trimmed (coloring : Coloring) :
          Text.trimRight (Style.dim.paint coloring (c :: r)) = Style.dim.paint coloring (c :: r) :=
        Style.trimRight_paint (by decide) (Text.trimRight_eq_self (h.ending _ hr))
      have nonempty (coloring : Coloring) : Style.dim.paint coloring (c :: r) ≠ [] := by
        cases coloring with
        | off => exact List.cons_ne_nil c r
        | full => exact List.cons_ne_nil esc _
      have kept (coloring : Coloring) : Text.trimRight (message ws m ++ ruleCell coloring m) =
          message ws m ++ Style.dim.paint coloring (c :: r) := by
        simp only [ruleCell, hr]
        rw [Text.trimRight_append _ (by rw [trimmed]; exact nonempty coloring), trimmed]
      rw [kept a, kept b]
      refine (Alike.of_plain plain).append ?_
      exact Style.alike_paint a b (by decide) (ended_of_plain (h.rule _ hr).1)

theorem alike_lineOf (ws : List Nat) {m : Finding} (h : m.Legible) :
    Alike (lineOf a ws m) (lineOf b ws m) := by
  have indented : esc ∉ indent ws m := by
    simp only [indent, List.mem_append, esc_not_mem_filler, esc_not_mem_separator, or_self,
      not_false_eq_true]
  have spaced : esc ∉ afterPlace ws m := by
    simp only [afterPlace, List.mem_append, esc_not_mem_filler, esc_not_mem_separator, or_self,
      not_false_eq_true]
  have place : esc ∉ lineNumber m ++ ':' :: columnNumber m := by
    have line : esc ∉ lineNumber m := (ofInt_plain m.line).1
    have column : esc ∉ columnNumber m := (ofInt_plain m.column).1
    simp only [List.mem_append, List.mem_cons, line, column, or_false, false_or]
    decide
  refine (Alike.of_plain indented).append (.append ?_ ?_)
  · exact Style.alike_paint a b (by decide) (ended_of_plain place)
  · refine (Alike.of_plain spaced).append (.append ?_ (alike_trimRight_rule a b ws h))
    exact Style.alike_paint a b (labelStyle_ne_nil _) (ended_of_plain (labelName_plain _).1)

theorem alike_unlines {α : Type} {f g : α → Text} {xs : List α}
    (h : ∀ x ∈ xs, Alike (f x) (g x)) :
    Alike (Text.unlines (xs.map f)) (Text.unlines (xs.map g)) := by
  unfold Text.unlines
  have feed : Alike ['\n'] ['\n'] := Alike.of_plain (by decide)
  induction xs with
  | nil => exact Alike.of_plain List.not_mem_nil
  | cons x xs ih =>
    have first := h x List.mem_cons_self
    have rest := ih fun y hy => h y (List.mem_cons_of_mem x hy)
    cases xs with
    | nil => exact first
    | cons y ys => exact (first.append feed).append rest

theorem alike_ofFindings (path : Text) {ms : List Finding}
    (h : ∀ m ∈ ms, m.Placed ∧ m.Legible) :
    Alike (ofFindings a path ms) (ofFindings b path ms) := by
  have rows : Alike (table a ms) (table b ms) := by
    have placed (m : Finding) (hm : m ∈ ms) := (h m hm).1
    have plain (m : Finding) (hm : m ∈ ms) := (h m hm).2.toPlain
    rw [table_eq a placed plain, table_eq b placed plain]
    exact alike_unlines fun m hm => alike_lineOf a b (widths ms) (h m hm).2
  have heading : Alike (Style.underline.paint a path ++ ['\n'])
      (Style.underline.paint b path ++ ['\n']) := by
    refine Alike.concat barrier_lineFeed (by decide) ?_
    rw [Style.unstyled_paint, Style.unstyled_paint]
  have gap : Alike ['\n', '\n'] ['\n', '\n'] := Alike.of_plain (by decide)
  unfold ofFindings
  rw [List.append_assoc ['\n', '\n'], List.append_assoc ['\n', '\n']]
  exact (gap.append heading).append rows

end Section

/-! ## Layouts -/

namespace Layout

variable (a b : Coloring)

theorem alike_body (kind : Finding → Bool) {files : List FileFindings}
    (h : ∀ f ∈ files, ∀ m ∈ f.findings, m.Placed ∧ m.Legible) :
    Alike (body a (ofKind kind files)) (body b (ofKind kind files)) := by
  refine Alike.flatMap fun e he => Section.alike_ofFindings a b e.path fun m hm => ?_
  obtain ⟨f, hf, -, sub⟩ := exists_of_mem_ofKind he
  exact h f hf m (sub m hm)

theorem alike_ruled {title s t : Text} (plain : esc ∉ title) (h : Alike s t) :
    Alike (Banner.ruled title s) (Banner.ruled title t) := by
  refine Alike.append (Alike.of_plain ?_) h
  exact List.not_mem_append (List.not_mem_append (List.not_mem_append (by decide) plain)
    (by decide)) (by decide)

theorem alike_text {files : List FileFindings}
    (h : ∀ f ∈ files, ∀ m ∈ f.findings, m.Placed ∧ m.Legible) :
    Alike (text a files) (text b files) := by
  unfold text existingBlock newBlock
  split
  · exact (alike_body a b every h).append (.of_plain (by decide))
  · refine Alike.append ?_ ?_
    · split
      · exact (alike_ruled (by decide) (alike_body a b unmarked h)).append (.of_plain (by decide))
      · exact Alike.of_plain List.not_mem_nil
    · split
      · exact (alike_ruled (by decide) (alike_body a b marked h)).append (.of_plain (by decide))
      · exact Alike.of_plain (by decide)

end Layout

/-! ## Reports -/

theorem counts_report_coloring (a b : Coloring) (policy : Policy) (files : List FileFindings) :
    (Run.report a policy files).counts = (Run.report b policy files).counts := by
  unfold Run.report
  cases Scope.ofFiles files <;> rfl

theorem emphasis_report_coloring (a b : Coloring) (policy : Policy) (files : List FileFindings) :
    (Run.report a policy files).emphasis = (Run.report b policy files).emphasis := by
  unfold Run.report
  cases Scope.ofFiles files <;> rfl

theorem Emphasis.style_ne_nil (e : Emphasis) : e.style ≠ [] := by cases e <;> decide

namespace Summary

theorem isGlyph_phrase (word : String) (h : ∀ c ∈ word.toList, IsGlyph c) (n : Int) :
    ∀ c ∈ phrase word n, IsGlyph c := by
  have number := isGlyph_ofInt n
  have noun : ∀ c ∈ ' ' :: word.toList, IsGlyph c := List.forall_mem_cons.mpr ⟨by decide, h⟩
  unfold phrase pluralize
  split
  · exact List.forall_mem_append.mpr ⟨number, noun⟩
  · exact List.forall_mem_append.mpr ⟨number, List.forall_mem_append.mpr ⟨noun, by decide⟩⟩

/-- The line of the problems is one line. -/
theorem problemText_eq (c : Counts) : ∃ s, problemText c = s ++ ['\n'] ∧ ∀ d ∈ s, IsGlyph d := by
  have problem := isGlyph_phrase "problem" (by decide) c.problems
  have error := isGlyph_phrase "error" (by decide) c.errors
  have warning := isGlyph_phrase "warning" (by decide) c.warnings
  refine ⟨_, (List.append_assoc _ [')'] ['\n']).symm, ?_⟩
  simp only [List.forall_mem_append]
  exact ⟨⟨⟨⟨⟨⟨by decide, problem⟩, by decide⟩, error⟩, by decide⟩, warning⟩, by decide⟩

/-- The line of what can be fixed is one line. -/
theorem fixableText_eq (c : Counts) : ∃ s, fixableText c = s ++ ['\n'] ∧ ∀ d ∈ s, IsGlyph d := by
  have error := isGlyph_phrase "error" (by decide) c.fixableErrors
  have warning := isGlyph_phrase "warning" (by decide) c.fixableWarnings
  have ending : " potentially fixable with the `--fix` option.\n".toList =
      " potentially fixable with the `--fix` option.".toList ++ ['\n'] := rfl
  refine ⟨_, (congrArg (_ ++ ·) ending).trans (List.append_assoc _ _ ['\n']).symm, ?_⟩
  simp only [List.forall_mem_append]
  exact ⟨⟨⟨⟨by decide, error⟩, by decide⟩, warning⟩, by decide⟩

theorem esc_not_mem_problemText (c : Counts) : esc ∉ problemText c := by
  obtain ⟨s, text, glyphs⟩ := problemText_eq c
  rw [text]
  exact List.not_mem_append (plain_of_glyphs glyphs).1 (by decide)

theorem esc_not_mem_fixableText (c : Counts) : esc ∉ fixableText c := by
  obtain ⟨s, text, glyphs⟩ := fixableText_eq c
  rw [text]
  exact List.not_mem_append (plain_of_glyphs glyphs).1 (by decide)

theorem alike_lines (a b : Coloring) (e : Emphasis) (c : Counts) :
    Alike (lines a e c) (lines b e c) := by
  have first := esc_not_mem_problemText c
  have second := esc_not_mem_fixableText c
  unfold lines
  refine (Style.alike_paint a b e.style_ne_nil (ended_of_plain first)).append ?_
  split
  · exact Style.alike_paint a b e.style_ne_nil (ended_of_plain second)
  · exact Alike.of_plain List.not_mem_nil

end Summary

theorem unstyled_render_report (a b : Coloring) (policy : Policy) {files : List FileFindings}
    (h : ∀ f ∈ files, ∀ m ∈ f.findings, m.Placed ∧ m.Legible) :
    ((Run.report a policy files).render a).map unstyled =
      ((Run.report b policy files).render b).map unstyled := by
  have counts := counts_report_coloring a b policy files
  have emphasis := emphasis_report_coloring a b policy files
  rw [Report.render_eq, Report.render_eq, Report.total, Report.total, counts, emphasis]
  split
  · rfl
  · split
    · have shown := ((Layout.alike_text a b h).append
        (Summary.alike_lines a b (Run.report b policy files).emphasis
          (Run.report b policy files).counts)).shown
      simp only [Except.map, Style.unstyled_paint, Layout.output_eq_text, shown]
    · rfl

/-- The printed text of a run shows the same whatever the colours are. -/
theorem unstyled_render (a b : Coloring) (policy : Policy) {files : List FileFindings}
    (h : ∀ f ∈ files, ∀ m ∈ f.findings, m.Placed ∧ m.Legible) :
    (Run.render a policy files).map unstyled = (Run.render b policy files).map unstyled := by
  rw [Run.render_eq, Run.render_eq]
  split
  · exact unstyled_render_report a b policy h
  · rfl

end LintReport
