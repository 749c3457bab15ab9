/-
  LintReport.Report.Run — the report on all files of a run.

  When the run holds findings on new lines only, they are shown as they are. Otherwise the findings
  on existing lines come first, if there are any, and the ones on new lines after them, each block
  under a banner; that there are no new ones is said in a banner too.
-/

import LintReport.Report.Merge
import LintReport.Report.Section
import LintReport.Report.Split

namespace LintReport

open Terminal (Coloring)
open Log (Event)
open Text (Numeral.Error)

namespace Banner

def rule : Text := " --------------------------------- ".toList

def existingTitle : Text := "Existing Lint Errors".toList

def newTitle : Text := "NEW Lint Errors".toList

def nothingNewTitle : Text := "No NEW Lint Errors! Nice.".toList

def ruled (title body : Text) : Text :=
  ['\n'] ++ rule ++ ['\n', ' '] ++ title ++ [' ', '\n'] ++ Text.trimRight rule ++ body

/-- The existing block, if there is something in it, and the new one. -/
def blocks (new existing : Text) : Text :=
  (if existing = [] then [] else ruled existingTitle existing ++ " \n\n".toList)
    ++ (if new = [] then ruled nothingNewTitle [] else ruled newTitle new) ++ "\n\n".toList

end Banner

namespace Run

/-- The report on all files of a run, whose numbers are not too long. -/
def report (coloring : Coloring) (policy : Policy) (files : List FileFindings) : Report :=
  match Scope.ofFiles files with
  | .lineOnly =>
    let new := Report.ofFiles coloring files
    new.merge policy (Report.ofFiles coloring []) (new.output ++ "\n\n".toList)
  | .fullFile =>
    let split := Split.ofFiles files
    let new := Report.ofFiles coloring split.new
    let existing := Report.ofFiles coloring split.existing
    new.merge policy existing (Banner.blocks new.output existing.output)

def write (coloring : Coloring) (policy : Policy) (files : List FileFindings) :
    Except Numeral.Error Report :=
  match Scope.ofFiles files with
  | .lineOnly => do
    let new ← Report.writeFiles coloring files
    return new.merge policy {} (new.output ++ "\n\n".toList)
  | .fullFile => do
    let split := Split.ofFiles files
    let new ← Report.writeFiles coloring split.new
    let existing ← Report.writeFiles coloring split.existing
    return new.merge policy existing (Banner.blocks new.output existing.output)

def events (files : List FileFindings) : List Event :=
  let scope := Scope.ofFiles files
  .scope scope ::
    match scope with
    | .lineOnly => Report.fileEvents files
    | .fullFile =>
      let split := Split.ofFiles files
      Split.event files :: (Report.fileEvents split.new ++ Report.fileEvents split.existing)

end Run

end LintReport
