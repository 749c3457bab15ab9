/-
  LintReport.Report — the report on some files: its text, its counts and how urgent it looks.

  Proved:
  - `Emphasis.join` is associative, commutative and idempotent, with yellow as identity and red
    absorbing (`join_assoc`, `join_comm`, `join_self`, `yellow_join`, `red_join`).
-/

import LintReport.Finding
import LintReport.Terminal.Style

namespace LintReport

open Terminal (Style)

inductive Label where
  | error
  | warning
  deriving DecidableEq, Repr

namespace Label

def ofFinding (m : Finding) : Label := if m.isError then .error else .warning

def name : Label → Text
  | .error => "error".toList
  | .warning => "warning".toList

def style : Label → Style
  | .error => Style.red
  | .warning => Style.yellow

end Label

/-- The colour of the summary: red as soon as there is an error. -/
inductive Emphasis where
  | yellow
  | red
  deriving DecidableEq, Repr

namespace Emphasis

def name : Emphasis → Text
  | .yellow => "yellow".toList
  | .red => "red".toList

def style : Emphasis → Style
  | .yellow => Style.yellow ++ Style.bold
  | .red => Style.red ++ Style.bold

def join : Emphasis → Emphasis → Emphasis
  | .yellow, .yellow => .yellow
  | _, _ => .red

def ofError (isError : Bool) : Emphasis := if isError then .red else .yellow

@[simp] theorem yellow_join (e : Emphasis) : join .yellow e = e := by cases e <;> rfl

@[simp] theorem join_yellow (e : Emphasis) : join e .yellow = e := by cases e <;> rfl

@[simp] theorem red_join (e : Emphasis) : join .red e = .red := rfl

@[simp] theorem join_red (e : Emphasis) : join e .red = .red := by cases e <;> rfl

@[simp] theorem join_self (e : Emphasis) : join e e = e := by cases e <;> rfl

theorem join_comm (a b : Emphasis) : join a b = join b a := by cases a <;> cases b <;> rfl

theorem join_assoc (a b c : Emphasis) : join (join a b) c = join a (join b c) := by
  cases a <;> cases b <;> cases c <;> rfl

theorem ofError_or (a b : Bool) : ofError (a || b) = join (ofError a) (ofError b) := by
  cases a <;> cases b <;> rfl

end Emphasis

structure Report where
  output : Text := []
  counts : Counts := 0
  emphasis : Emphasis := .yellow
  deriving DecidableEq, Repr

namespace Report

def total (r : Report) : Int := r.counts.errors + r.counts.warnings

def hasFixable (r : Report) : Bool := r.counts.fixableErrors > 0 || r.counts.fixableWarnings > 0

end Report

end LintReport
