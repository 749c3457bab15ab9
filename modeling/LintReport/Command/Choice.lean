/-
  LintReport.Command.Choice — a value given by one of several names.

  A name is found in any case. For completion the names are compared as they are.

  Proved:
  - `convert_color` / `convert_policy`: each name stands for its value.
-/

import LintReport.Report.Merge
import LintReport.Text.Case

namespace LintReport.Command

/-- The names a value can be given by, with the values. -/
abbrev Choice (α : Type) := List (Text × α)

namespace Choice

variable {α : Type}

def complaint (choice : Choice α) (value : Text) : Text :=
  "Invalid value '".toList ++ value ++ "'. Must be one of: ".toList
    ++ Text.join ", ".toList (choice.map (·.1))

def convert (choice : Choice α) (value : Text) : Except Text α :=
  match choice.find? fun m => Text.lower m.1 = Text.lower value with
  | some m => .ok m.2
  | none => .error (choice.complaint value)

def complete (choice : Choice α) (beginning : Text) : List Text :=
  (choice.map (·.1)).filter beginning.isPrefixOf

end Choice

inductive ColorChoice where
  | auto
  | always
  | never
  deriving DecidableEq, Repr

def ColorChoice.name : ColorChoice → Text
  | .auto => "auto".toList
  | .always => "always".toList
  | .never => "never".toList

def Choice.color : Choice ColorChoice :=
  [ColorChoice.auto, .always, .never].map fun c => (c.name, c)

def Choice.policy : Choice Policy := Policy.all.map fun p => (p.name, p)

theorem Choice.convert_color (c : ColorChoice) : Choice.color.convert c.name = .ok c := by
  cases c <;> rfl

theorem Choice.convert_policy (p : Policy) : Choice.policy.convert p.name = .ok p := by
  cases p <;> rfl

end LintReport.Command
