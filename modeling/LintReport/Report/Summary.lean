/-
  LintReport.Report.Summary — the lines that sum a report up, and the text that is printed.

  The summary names the problems and, if any, those a linter could fix by itself. A report without
  problems is not printed at all. One that is printed is reset to plain display at both ends and
  around every line break, so that nothing of it carries over into what comes next.

  Proved:
  - `render_of_total_le`: a report without problems has no text.
-/

import LintReport.Report.Run

namespace LintReport

open Terminal (Coloring Style)
open Log (Event)
open Text (Numeral.Error Numeral.write)

namespace Summary

def pluralize (word : Text) (count : Int) : Text := if count = 1 then word else word ++ ['s']

def counted (word : String) (count : Int) : Except Numeral.Error Text := do
  return (← Numeral.write count) ++ pluralize (' ' :: word.toList) count

def problemLine (r : Report) : Except Numeral.Error Text := do
  let problems ← counted "problem" r.total
  let errors ← counted "error" r.counts.errors
  let warnings ← counted "warning" r.counts.warnings
  return "✖ ".toList ++ problems ++ " (".toList ++ errors ++ ", ".toList ++ warnings ++ ")\n".toList

def fixableLine (r : Report) : Except Numeral.Error Text := do
  let errors ← counted "error" r.counts.fixableErrors
  let warnings ← counted "warning" r.counts.fixableWarnings
  return "  ".toList ++ errors ++ " and ".toList ++ warnings
    ++ " potentially fixable with the `--fix` option.\n".toList

def ofReport (coloring : Coloring) (r : Report) : Except Numeral.Error Text :=
  if r.total ≤ 0 then .ok []
  else do
    let emphasis := r.emphasis.style.paint coloring
    let problems ← problemLine r
    if r.hasFixable then return emphasis problems ++ emphasis (← fixableLine r)
    else return emphasis problems

end Summary

namespace Report

def render (coloring : Coloring) (r : Report) : Except Numeral.Error Text :=
  if r.total ≤ 0 then .ok []
  else do return Style.reset.paint coloring (r.output ++ (← Summary.ofReport coloring r))

def totalsEvent (r : Report) : Event := .totals r.counts.errors r.counts.warnings r.emphasis

theorem render_of_total_le {r : Report} (h : r.total ≤ 0) (coloring : Coloring) :
    r.render coloring = .ok [] := if_pos h

end Report

namespace Run

/-- The printed text of a run; nothing for one without files. -/
def render (coloring : Coloring) (policy : Policy) (files : List FileFindings) :
    Except Numeral.Error Text :=
  if files = [] then .ok [] else do (← write coloring policy files).render coloring

def renderEvents (coloring : Coloring) (policy : Policy) (files : List FileFindings) : List Event :=
  if files = [] then [] else events files ++ [(report coloring policy files).totalsEvent]

end Run

end LintReport
