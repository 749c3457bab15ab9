/-
  LintReport.Report.Section — the part of a report on each file, and the report on some files.

  A section shows the underlined path and a table with one row for each finding: its place, a label,
  its text without a closing period, and the rule. The table is laid out with line and column in
  two cells, and then the first two numbers on each line of it become one dim token with a colon
  between them. A file without findings has no section, and its counts are left out.

  A number may be too long to be written, and then there is neither table nor report (`writeTable`,
  `writeFiles`). What they are as long as no number is too long has functions of its own (`table`,
  `ofFiles`).

  Proved:
  - `ofFiles_append`: the report on two lists of files is put together from theirs.
  - `ofFiles_of_hasFindings` / `ofFiles_of_not_hasFindings`: what one file adds to a report.
-/

import LintReport.Log.Event
import LintReport.Table
import LintReport.Text.Digit

namespace LintReport

open Terminal (Coloring Style)
open Log (Event)
open Text (Numeral.Error Numeral.write)

namespace Section

/-! ## Rows -/

/-- The text without its final period, if a character other than a space stands before it. -/
def dropPeriod (s : Text) : Text :=
  match s.reverse with
  | '.' :: c :: rest => if c = ' ' then s else (c :: rest).reverse
  | _ => s

def labelCell (coloring : Coloring) (m : Finding) : Text :=
  let label := Label.ofFinding m
  label.style.paint coloring label.name

def ruleCell (coloring : Coloring) (m : Finding) : Text :=
  match m.rule with
  | none | some [] => []
  | some rule => Style.dim.paint coloring rule

def writeRow (coloring : Coloring) (m : Finding) : Except Numeral.Error Table.Row := do
  let line ← Numeral.write m.line
  let column ← Numeral.write m.column
  return [[], line, column, labelCell coloring m, dropPeriod m.text, ruleCell coloring m]

/-- The row of a finding whose numbers are not too long. -/
def row (coloring : Coloring) (m : Finding) : Table.Row :=
  [[], Text.Numeral.ofInt m.line, Text.Numeral.ofInt m.column, labelCell coloring m,
    dropPeriod m.text, ruleCell coloring m]

def aligns : List Align := [.left, .right, .left]

def separator : Text := [' ', ' ']

/-! ## Tables -/

/-- Finds two numbers with blanks between them, to be joined by a colon. -/
def placeRule (coloring : Coloring) : Text.Rule := fun s =>
  let first := s.takeWhile Text.isDecimal
  let gap := (s.drop first.length).takeWhile Text.isBlank
  let second := (s.drop (first.length + gap.length)).takeWhile Text.isDecimal
  if first ≠ [] ∧ gap ≠ [] ∧ second ≠ [] then
    some ⟨first.length + gap.length + second.length - 1,
      Style.dim.paint coloring (first ++ ':' :: second)⟩
  else none

def joinPlace (coloring : Coloring) (line : Text) : Text :=
  Text.substituteFirst (placeRule coloring) line

def layOut (coloring : Coloring) (rows : List Table.Row) : Text :=
  let grid := Table.render Terminal.visibleLength aligns separator rows
  Text.unlines ((Text.lines grid).map (joinPlace coloring))

def writeTable (coloring : Coloring) (ms : List Finding) : Except Numeral.Error Text := do
  return layOut coloring (← ms.mapM (writeRow coloring))

def table (coloring : Coloring) (ms : List Finding) : Text := layOut coloring (ms.map (row coloring))

/-! ## Sections -/

def ofFindings (coloring : Coloring) (path : Text) (ms : List Finding) : Text :=
  ['\n', '\n'] ++ Style.underline.paint coloring path ++ ['\n'] ++ table coloring ms

def ofFile (coloring : Coloring) (f : FileFindings) : Text := ofFindings coloring f.path f.findings

def writeFile (coloring : Coloring) (f : FileFindings) : Except Numeral.Error Text := do
  let table ← writeTable coloring f.findings
  return ['\n', '\n'] ++ Style.underline.paint coloring f.path ++ ['\n'] ++ table

end Section

def FileFindings.hasFindings (f : FileFindings) : Bool := !f.findings.isEmpty

def FileFindings.hasErrors (f : FileFindings) : Bool := f.findings.any (·.isError)

namespace Report

/-- The report on some files: their sections in order, and the sums of the counts reported for
them. -/
def ofFiles (coloring : Coloring) (files : List FileFindings) : Report :=
  let shown := files.filter (·.hasFindings)
  { output := shown.flatMap (Section.ofFile coloring)
    counts := Counts.sum (shown.map (·.counts))
    emphasis := .ofError (shown.any (·.hasErrors)) }

def writeFiles (coloring : Coloring) (files : List FileFindings) : Except Numeral.Error Report := do
  let shown := files.filter (·.hasFindings)
  let sections ← shown.mapM (Section.writeFile coloring)
  return { output := sections.flatten
           counts := Counts.sum (shown.map (·.counts))
           emphasis := .ofError (shown.any (·.hasErrors)) }

def fileEvent (f : FileFindings) : Event :=
  if f.hasFindings then .rendered f.findings.length f.path else .left f.path

def fileEvents (files : List FileFindings) : List Event := files.map fileEvent

def append (r s : Report) : Report :=
  { output := r.output ++ s.output
    counts := r.counts + s.counts
    emphasis := r.emphasis.join s.emphasis }

@[simp] theorem ofFiles_nil (coloring : Coloring) : ofFiles coloring [] = {} := rfl

theorem ofFiles_append (coloring : Coloring) (xs ys : List FileFindings) :
    ofFiles coloring (xs ++ ys) = (ofFiles coloring xs).append (ofFiles coloring ys) := by
  simp [ofFiles, append, Counts.sum_append, Emphasis.ofError_or]

theorem ofFiles_cons (coloring : Coloring) (f : FileFindings) (files : List FileFindings) :
    ofFiles coloring (f :: files) = (ofFiles coloring [f]).append (ofFiles coloring files) :=
  ofFiles_append coloring [f] files

/-- A file with findings adds its section and its counts. -/
theorem ofFiles_of_hasFindings (coloring : Coloring) {f : FileFindings} (h : f.hasFindings = true) :
    ofFiles coloring [f] = ⟨Section.ofFile coloring f, f.counts, .ofError f.hasErrors⟩ := by
  simp [ofFiles, h]

/-- A file without findings adds nothing. -/
theorem ofFiles_of_not_hasFindings (coloring : Coloring) {f : FileFindings}
    (h : ¬ f.hasFindings = true) : ofFiles coloring [f] = {} := by
  simp [ofFiles, h, Emphasis.ofError]

end Report

end LintReport
