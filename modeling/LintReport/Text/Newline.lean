/-
  LintReport.Text.Newline — line breaks of every system read as line feeds.
-/

import LintReport.Text.Basic

namespace LintReport.Text.Newline

/-- A carriage return, with or without a line feed behind it, becomes a line feed. -/
def normalize : Text → Text
  | [] => []
  | '\r' :: '\n' :: cs => '\n' :: normalize cs
  | c :: cs => (if c = '\r' then '\n' else c) :: normalize cs

end LintReport.Text.Newline
