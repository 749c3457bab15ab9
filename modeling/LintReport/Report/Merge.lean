/-
  LintReport.Report.Merge — the report on new lines and the one on the rest made one.

  Counts are added, or the one for new lines is preferred wherever it is not zero.

  Proved:
  - `Policy.combine` is associative with zero as identity under both policies.
  - `Report.merge_empty`: merged with the empty report, a report keeps its counts and its colour.
-/

import LintReport.Report

namespace LintReport

inductive Policy where
  | sum
  | firstNonzero
  deriving DecidableEq, Repr

namespace Policy

def name : Policy → Text
  | .sum => "sum".toList
  | .firstNonzero => "first-nonzero".toList

def all : List Policy := [.sum, .firstNonzero]

def combine : Policy → Int → Int → Int
  | .sum, a, b => a + b
  | .firstNonzero, a, b => if a ≠ 0 then a else b

theorem combine_assoc (p : Policy) (a b c : Int) :
    p.combine (p.combine a b) c = p.combine a (p.combine b c) := by
  cases p with
  | sum => exact Int.add_assoc a b c
  | firstNonzero => by_cases h : a = 0 <;> simp [combine, h]

@[simp] theorem combine_zero (p : Policy) (a : Int) : p.combine a 0 = a := by
  cases p with
  | sum => exact Int.add_zero a
  | firstNonzero => by_cases h : a = 0 <;> simp [combine, h]

@[simp] theorem zero_combine (p : Policy) (a : Int) : p.combine 0 a = a := by
  cases p <;> simp [combine]

end Policy

def Report.merge (policy : Policy) (new existing : Report) (output : Text) : Report :=
  { output
    counts := Counts.combine policy.combine new.counts existing.counts
    emphasis := new.emphasis.join existing.emphasis }

/-- Merged with the empty report, a report keeps its counts and its colour. -/
theorem Report.merge_empty (policy : Policy) (r : Report) (output : Text) :
    r.merge policy {} output = { r with output := output } := by
  simp [merge, Counts.combine, Counts.zero_def]

end LintReport
