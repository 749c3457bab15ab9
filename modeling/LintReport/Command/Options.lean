/-
  LintReport.Command.Options — what options and environment together decide.

  The log level comes from the environment if that asks for one, and from the options for a louder
  or quieter log otherwise. Colours are written as an option says; without one, or when it leaves
  the choice to the program, the environment is asked, and then the output: a terminal gets them.

  Proved:
  - `coloring_noColor`: with the option against colours there are none.
-/

import LintReport.Command.Arguments
import LintReport.Command.Failure
import LintReport.Log.Level

namespace LintReport.Command

open Terminal (Coloring)
open Log (Level)

structure Environment where
  forceColor : Option Text := none
  noColor : Option Text := none
  logLevel : Option Text := none
  deriving DecidableEq, Repr

def verbosityLevel (verbose quiet : Int) : Except Failure Level :=
  if 0 < verbose ∧ 0 < quiet then .error .verbosityConflict
  else if 3 ≤ verbose then .ok Level.trace
  else if verbose = 2 then .ok Level.debug
  else if verbose = 1 then .ok Level.info
  else if 2 ≤ quiet then .ok Level.critical
  else if quiet = 1 then .ok Level.error
  else .ok Level.warning

/-- Whether the environment forces colours: the variable is set to something other than zero. -/
def Environment.forces (env : Environment) : Bool :=
  match env.forceColor with
  | none | some [] | some ['0'] => false
  | some _ => true

def ColorChoice.coloring (choice : ColorChoice) (env : Environment) (isTerminal : Bool) :
    Coloring :=
  match choice with
  | .always => .full
  | .never => .off
  | .auto =>
    if env.forces then .full
    else if env.noColor.isSome then .off
    else if isTerminal then .full else .off

namespace Settings

def choice (s : Settings) : ColorChoice := if s.noColor then .never else s.color.getD .auto

def coloring (s : Settings) (env : Environment) (isTerminal : Bool) : Coloring :=
  s.choice.coloring env isTerminal

def level (s : Settings) (asked : Option Level) : Except Failure Level :=
  match asked with
  | some level => .ok level
  | none => verbosityLevel s.verbose s.quiet

theorem coloring_noColor {s : Settings} (h : s.noColor = true) (env : Environment)
    (isTerminal : Bool) : s.coloring env isTerminal = .off := by
  simp [coloring, choice, h, ColorChoice.coloring]

end Settings

end LintReport.Command
