/-
  LintReport.Command.Console — what the program writes for its user, apart from the log.

  A console without colours removes the control sequences from everything it writes.

  Proved:
  - `shown_full`: with colours a text is written as it is.
-/

import LintReport.Terminal.Style

namespace LintReport.Command.Console

open Terminal (Coloring unstyled)

def shown (coloring : Coloring) (s : Text) : Text :=
  match coloring with
  | .full => s
  | .off => unstyled s

def ending (newline : Bool) : Text := if newline then ['\n'] else []

def printed (coloring : Coloring) (s : Text) (newline : Bool) : Text :=
  shown coloring (s ++ ending newline)

/-- A text for the error stream: bright red between its code and a full reset. -/
def complained (coloring : Coloring) (s : Text) (newline : Bool) : Text :=
  shown coloring (Terminal.code 91 ++ s ++ Terminal.code 0 ++ ending newline)

def failed (coloring : Coloring) (message : Text) : Text :=
  shown coloring ("Error: ".toList ++ message ++ ending true)

@[simp] theorem shown_full (s : Text) : shown .full s = s := rfl

end LintReport.Command.Console
