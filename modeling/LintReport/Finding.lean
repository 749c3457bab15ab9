/-
  LintReport.Finding — what a linter found in a run: findings, file by file.

  Each file comes with four counts that the linter reported for it. They are taken as they are;
  only a file cut down to some of its findings has them counted anew (`FileFindings.restrict`).

  Proved:
  - `Counts.ofFindings_append`: counting two lists of findings is adding their counts.
  - `Counts` with `+` and `0` is a commutative monoid (`add_assoc`, `add_comm`, `zero_add`).
-/

import LintReport.Text.Basic

namespace LintReport

inductive Severity where
  | info
  | warning
  | error
  deriving DecidableEq, Repr

/-- One finding. Line and column count from one; zero stands for an unknown place. -/
structure Finding where
  line : Int := 0
  column : Int := 0
  severity : Severity := .warning
  text : Text := []
  rule : Option Text := none
  fatal : Bool := false
  fixable : Bool := false
  /-- It sits on a line that is new in the change under review. -/
  newLine : Bool := false
  deriving DecidableEq, Repr

/-- Fatal problems are errors whatever their severity. -/
def Finding.isError (m : Finding) : Bool := m.fatal || m.severity = .error

/-! ## Counts -/

structure Counts where
  errors : Int := 0
  warnings : Int := 0
  fixableErrors : Int := 0
  fixableWarnings : Int := 0
  deriving DecidableEq, Repr

namespace Counts

def combine (f : Int → Int → Int) (a b : Counts) : Counts :=
  ⟨f a.errors b.errors, f a.warnings b.warnings, f a.fixableErrors b.fixableErrors,
    f a.fixableWarnings b.fixableWarnings⟩

instance : Add Counts := ⟨combine (· + ·)⟩

instance : OfNat Counts 0 := ⟨⟨0, 0, 0, 0⟩⟩

def sum (cs : List Counts) : Counts := cs.foldr (· + ·) 0

def one (m : Finding) : Counts :=
  let fix : Int := if m.fixable then 1 else 0
  if m.isError then ⟨1, 0, fix, 0⟩ else ⟨0, 1, 0, fix⟩

def ofFindings (ms : List Finding) : Counts := sum (ms.map one)

theorem add_def (a b : Counts) : a + b = combine (· + ·) a b := rfl

theorem zero_def : (0 : Counts) = ⟨0, 0, 0, 0⟩ := rfl

@[simp] theorem add_zero (a : Counts) : a + 0 = a := by simp [add_def, combine, zero_def]

@[simp] theorem zero_add (a : Counts) : 0 + a = a := by simp [add_def, combine, zero_def]

theorem add_comm (a b : Counts) : a + b = b + a := by
  simp [add_def, combine, Int.add_comm]

theorem add_assoc (a b c : Counts) : a + b + c = a + (b + c) := by
  simp [add_def, combine, Int.add_assoc]

@[simp] theorem sum_nil : sum [] = 0 := rfl

@[simp] theorem sum_cons (c : Counts) (cs : List Counts) : sum (c :: cs) = c + sum cs := rfl

theorem sum_append (as bs : List Counts) : sum (as ++ bs) = sum as + sum bs := by
  induction as with
  | nil => simp
  | cons a as ih => rw [List.cons_append, sum_cons, ih, sum_cons, add_assoc]

/-- Counting two lists of findings is adding their counts. -/
theorem ofFindings_append (ms ns : List Finding) :
    ofFindings (ms ++ ns) = ofFindings ms + ofFindings ns := by
  simp [ofFindings, sum_append]

end Counts

/-! ## Files -/

/-- How the findings of a run were chosen: only those on new lines, or all of each file with the
ones on new lines marked. -/
inductive Scope where
  | lineOnly
  | fullFile
  deriving DecidableEq, Repr

def Scope.name : Scope → Text
  | .lineOnly => "lineOnly".toList
  | .fullFile => "fullFile".toList

structure FileFindings where
  path : Text
  findings : List Finding := []
  counts : Counts := 0
  scope : Option Scope := none
  deriving DecidableEq, Repr

namespace FileFindings

/-- The file with these of its findings, counted anew. -/
def restrict (f : FileFindings) (ms : List Finding) : FileFindings :=
  { f with findings := ms, counts := Counts.ofFindings ms }

def newFindings (f : FileFindings) : List Finding := f.findings.filter (·.newLine)

def oldFindings (f : FileFindings) : List Finding := f.findings.filter (!·.newLine)

end FileFindings

end LintReport
