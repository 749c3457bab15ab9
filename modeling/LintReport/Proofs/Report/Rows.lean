/-
  LintReport.Proofs.Report.Rows — the lines of a table of findings.

  A table is laid out as a grid of cells, its lines are trimmed, and then the first two numbers of
  each become one token. Here each line is written out: the place of its finding, the label, the
  text and the rule, with the spaces that bring each of them to the width of its column. How wide
  a column is does not depend on the colours.

  Proved:
  - `joinPlace_row`: a trimmed row becomes this line when its finding has a place.
  - `table_eq`: a table of findings that each take one line is these lines.
-/

import LintReport.Proofs.Report.Place
import LintReport.Proofs.Terminal.Display
import LintReport.Proofs.Terminal.Paint

namespace LintReport

open Terminal (Coloring Style esc visibleLength)
open Text (IsRun StopsAt isDecimal isBlank)

namespace Finding

structure Placed (m : Finding) : Prop where
  line : 0 ≤ m.line
  column : 0 ≤ m.column

structure Plain (m : Finding) : Prop where
  text : esc ∉ m.text ∧ '\n' ∉ m.text
  rule : ∀ r, m.rule = some r → esc ∉ r ∧ '\n' ∉ r

end Finding

namespace Section

/-! ## Cells -/

theorem visibleLength_labelCell (a b : Coloring) (m : Finding) :
    visibleLength (labelCell a m) = visibleLength (labelCell b m) := by
  simp [labelCell]

theorem visibleLength_ruleCell (a b : Coloring) (m : Finding) :
    visibleLength (ruleCell a m) = visibleLength (ruleCell b m) := by
  unfold ruleCell
  split
  · rfl
  · rfl
  · rw [Style.visibleLength_paint, Style.visibleLength_paint]

theorem map_visibleLength_row (a b : Coloring) (m : Finding) :
    (row a m).map visibleLength = (row b m).map visibleLength := by
  simp only [row, List.map_cons, List.map_nil, visibleLength_labelCell a b,
    visibleLength_ruleCell a b]

def widths (ms : List Finding) : List Nat := Table.widths visibleLength (ms.map (row .off))

theorem widths_eq (coloring : Coloring) (ms : List Finding) :
    Table.widths visibleLength (ms.map (row coloring)) = widths ms := by
  unfold widths Table.widths
  rw [List.foldl_map, List.foldl_map]
  simp only [map_visibleLength_row coloring .off]

theorem prefix_dropPeriod (s : Text) : dropPeriod s <+: s := by
  unfold dropPeriod
  split
  · rename_i c rest h
    have hs : s = (c :: rest).reverse ++ ['.'] := by
      rw [← List.reverse_reverse s, h, List.reverse_cons]
    split
    · exact List.prefix_rfl
    · exact ⟨['.'], hs.symm⟩
  · exact List.prefix_rfl

theorem labelName_plain (l : Label) : esc ∉ l.name ∧ '\n' ∉ l.name := by cases l <;> decide

theorem trimRight_labelName (l : Label) : Text.trimRight l.name = l.name := by cases l <;> decide

theorem labelStyle_ne_nil (l : Label) : l.style ≠ [] := by cases l <;> decide

/-! ## Lines -/

/-- The spaces that bring a cell to the width of its column. -/
def filler (ws : List Nat) (j : Nat) (cell : Text) : Text :=
  List.replicate (ws.getD j 0 - visibleLength cell) ' '

def lineNumber (m : Finding) : Text := Text.Numeral.ofInt m.line

def columnNumber (m : Finding) : Text := Text.Numeral.ofInt m.column

def indent (ws : List Nat) (m : Finding) : Text :=
  filler ws 0 [] ++ (separator ++ filler ws 1 (lineNumber m))

def afterPlace (ws : List Nat) (m : Finding) : Text := filler ws 2 (columnNumber m) ++ separator

/-- What stands between the label and the rule. -/
def message (ws : List Nat) (m : Finding) : Text :=
  filler ws 3 (Label.ofFinding m).name ++ (separator ++ (dropPeriod m.text
    ++ (filler ws 4 (dropPeriod m.text) ++ separator)))

/-- What stands behind the place, trimmed. -/
def afterNumbers (coloring : Coloring) (ws : List Nat) (m : Finding) : Text :=
  afterPlace ws m ++ (labelCell coloring m
    ++ Text.trimRight (message ws m ++ ruleCell coloring m))

def lineOf (coloring : Coloring) (ws : List Nat) (m : Finding) : Text :=
  indent ws m ++ (Style.dim.paint coloring (lineNumber m ++ ':' :: columnNumber m)
    ++ afterNumbers coloring ws m)

theorem line_row (coloring : Coloring) (ws : List Nat) (m : Finding) :
    Table.line visibleLength ws aligns separator (row coloring m) =
      indent ws m ++ (lineNumber m ++ (separator ++ (columnNumber m ++ (afterPlace ws m
        ++ (labelCell coloring m ++ ((message ws m ++ ruleCell coloring m)
          ++ filler ws 5 (ruleCell coloring m))))))) := by
  have label : visibleLength (labelCell coloring m) = visibleLength (Label.ofFinding m).name := by
    simp [labelCell]
  have at' (k : Nat) (l : List Nat) : l.tail.getD k 0 = l.getD (k + 1) 0 := by cases l <;> simp
  have hd (l : List Nat) : l.headD 0 = l.getD 0 0 := by cases l <;> rfl
  simp only [Table.line, row, Table.padRow, Table.pad, Text.join, aligns, List.headD_cons,
    List.tail_cons, List.tail_nil, List.headD_nil, hd, at', label, indent, afterPlace, message,
    filler, lineNumber, columnNumber, List.append_assoc, List.nil_append]

theorem eq_space_of_mem_filler {ws : List Nat} {j : Nat} {cell : Text} {c : Char}
    (h : c ∈ filler ws j cell) : c = ' ' := List.eq_of_mem_replicate h

theorem isBlank_filler {ws : List Nat} {j : Nat} {cell : Text} :
    ∀ c ∈ filler ws j cell, isBlank c = true := by
  intro c hc
  rw [eq_space_of_mem_filler hc]
  decide

theorem isRun_separator : IsRun isBlank separator := by
  refine ⟨by decide, fun c hc => ?_⟩
  have space : c ∈ List.replicate 2 ' ' := hc
  rw [List.eq_of_mem_replicate space]
  decide

theorem isRun_afterPlace (ws : List Nat) (m : Finding) : IsRun isBlank (afterPlace ws m) := by
  refine ⟨by simp [afterPlace, separator], fun c hc => ?_⟩
  rcases List.mem_append.mp hc with hc | hc
  · exact isBlank_filler c hc
  · exact isRun_separator.2 c hc

theorem not_isDecimal_indent {ws : List Nat} {m : Finding} :
    ∀ c ∈ indent ws m, isDecimal c = false := by
  intro c hc
  refine Text.not_isDecimal_of_isBlank ?_
  rcases List.mem_append.mp hc with hc | hc
  · exact isBlank_filler c hc
  · rcases List.mem_append.mp hc with hc | hc
    · exact isRun_separator.2 c hc
    · exact isBlank_filler c hc

theorem isRun_ofInt {n : Int} (h : 0 ≤ n) : IsRun isDecimal (Text.Numeral.ofInt n) := by
  cases n with
  | ofNat n =>
    exact ⟨Text.Numeral.ofNat_ne_nil n,
      fun c hc => Text.isDecimal_of_isDigit (Text.Numeral.ofNat_isDigit hc)⟩
  | negSucc n => exact absurd h (by omega)

theorem trimRight_labelCell (coloring : Coloring) (m : Finding) :
    Text.trimRight (labelCell coloring m) = labelCell coloring m :=
  Style.trimRight_paint (labelStyle_ne_nil _) (trimRight_labelName _)

theorem labelCell_ne_nil (coloring : Coloring) (m : Finding) : labelCell coloring m ≠ [] := by
  intro h
  have length := visibleLength_labelCell coloring .off m
  rw [h] at length
  revert length
  rw [labelCell, Style.paint_off]
  cases Label.ofFinding m <;> decide

/-- The label is no blank, so that trimming goes no further than the text of the finding. -/
theorem trimRight_line (coloring : Coloring) (ws : List Nat) (m : Finding) :
    Text.trimRight (Table.line visibleLength ws aligns separator (row coloring m)) =
      indent ws m ++ (lineNumber m ++ (separator ++ (columnNumber m
        ++ afterNumbers coloring ws m))) := by
  have tail : Text.trimRight (labelCell coloring m ++ ((message ws m ++ ruleCell coloring m)
      ++ filler ws 5 (ruleCell coloring m))) =
        labelCell coloring m ++ Text.trimRight (message ws m ++ ruleCell coloring m) := by
    rw [Text.trimRight_append_of_trimmed (trimRight_labelCell coloring m),
      Text.trimRight_append_blank _ isBlank_filler]
  have tail_ne : Text.trimRight (labelCell coloring m ++ ((message ws m ++ ruleCell coloring m)
      ++ filler ws 5 (ruleCell coloring m))) ≠ [] := by
    rw [tail]
    exact fun h => labelCell_ne_nil coloring m (List.append_eq_nil_iff.mp h).1
  have front := Text.trimRight_append
    (indent ws m ++ (lineNumber m ++ (separator ++ (columnNumber m ++ afterPlace ws m)))) tail_ne
  rw [tail] at front
  simp only [List.append_assoc] at front
  rw [line_row, afterNumbers, List.append_assoc (message ws m)]
  exact front

/-- The trimmed row of a finding with a place becomes its line. -/
theorem joinPlace_row (coloring : Coloring) (ws : List Nat) {m : Finding} (h : m.Placed) :
    joinPlace coloring
        (Text.trimRight (Table.line visibleLength ws aligns separator (row coloring m))) =
      lineOf coloring ws m := by
  have behind : StopsAt isDecimal (afterNumbers coloring ws m) :=
    Text.stopsAt_of_run (isRun_afterPlace ws m) (fun _ => Text.not_isDecimal_of_isBlank) _
  rw [trimRight_line, lineOf]
  exact joinPlace_eq coloring not_isDecimal_indent (isRun_ofInt h.line) isRun_separator
    (isRun_ofInt h.column) behind

/-! ## Tables -/

theorem ofInt_plain (n : Int) : esc ∉ Text.Numeral.ofInt n ∧ '\n' ∉ Text.Numeral.ofInt n :=
  Terminal.plain_of_glyphs (Terminal.isGlyph_ofInt n)

theorem lineFeed_not_mem_ruleCell (coloring : Coloring) {m : Finding} (h : m.Plain) :
    '\n' ∉ ruleCell coloring m := by
  unfold ruleCell
  split
  · exact List.not_mem_nil
  · exact List.not_mem_nil
  · rename_i r _ hr
    obtain ⟨hesc, hline⟩ := h.rule r hr
    exact Style.lineFeed_not_mem_paint coloring _ hesc hline

theorem lineFeed_not_mem_row (coloring : Coloring) {m : Finding} (h : m.Plain) :
    ∀ cell ∈ row coloring m, '\n' ∉ cell := by
  obtain ⟨labelEsc, labelLine⟩ := labelName_plain (Label.ofFinding m)
  have message : '\n' ∉ dropPeriod m.text := fun c => h.text.2 ((prefix_dropPeriod _).mem c)
  simp only [row, List.forall_mem_cons, List.not_mem_nil, not_false_eq_true, true_and]
  exact ⟨(ofInt_plain _).2, (ofInt_plain _).2,
    Style.lineFeed_not_mem_paint coloring _ labelEsc labelLine, message,
    lineFeed_not_mem_ruleCell coloring h, fun _ none => none.elim⟩

theorem lineFeed_not_mem_line (coloring : Coloring) (ws : List Nat) {m : Finding} (h : m.Plain) :
    '\n' ∉ Text.trimRight (Table.line visibleLength ws aligns separator (row coloring m)) := by
  intro hmem
  rcases Table.mem_line ((Text.prefix_trimRight _).mem hmem) with hc | hc | ⟨cell, hcell, hc⟩
  · exact absurd hc (by decide)
  · exact absurd hc (by decide)
  · exact lineFeed_not_mem_row coloring h cell hcell hc

/-- A table of findings that have a place and take one line each is their lines. -/
theorem table_eq (coloring : Coloring) {ms : List Finding} (placed : ∀ m ∈ ms, m.Placed)
    (plain : ∀ m ∈ ms, m.Plain) :
    table coloring ms = Text.unlines (ms.map (lineOf coloring (widths ms))) := by
  cases hms : ms with
  | nil => rfl
  | cons m ms' =>
    rw [← hms]
    have grid : Text.lines (Table.render visibleLength aligns separator (ms.map (row coloring))) =
        ms.map fun m => Text.trimRight
          (Table.line visibleLength (widths ms) aligns separator (row coloring m)) := by
      rw [Table.render, widths_eq, List.map_map]
      refine Text.lines_unlines (by simp [hms]) fun l hl => ?_
      obtain ⟨m, hm, rfl⟩ := List.mem_map.mp hl
      exact lineFeed_not_mem_line coloring (widths ms) (plain m hm)
    have lines : ms.map (fun m => joinPlace coloring (Text.trimRight
        (Table.line visibleLength (widths ms) aligns separator (row coloring m)))) =
          ms.map (lineOf coloring (widths ms)) :=
      List.map_congr_left fun m hm => joinPlace_row coloring (widths ms) (placed m hm)
    rw [table, layOut, grid, List.map_map]
    exact congrArg Text.unlines lines

end Section

end LintReport
