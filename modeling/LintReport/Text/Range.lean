/-
  LintReport.Text.Range — character classes given by ranges of code points.
-/

namespace LintReport.Text

/-- The first and the last code point of each run of a class. -/
abbrev Ranges := List (Nat × Nat)

def Ranges.has (rs : Ranges) (code : Nat) : Bool := rs.any fun r => r.1 ≤ code && code ≤ r.2

end LintReport.Text
