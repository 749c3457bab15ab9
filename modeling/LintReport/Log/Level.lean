/-
  LintReport.Log.Level — the levels of log records, and the level asked for in the environment.

  Six levels have names; any other integer is a level too. A value of the environment variable is
  a number when all its characters look like digits, and a name otherwise, in any case and with
  blanks around it.

  Proved:
  - `ofEnvironment_unset`: an unset or empty variable asks for no level.
  - `exists_ofEnvironment_eq_error_iff`: the values that are taken for numbers and are none.
-/

import LintReport.Text.Blank
import LintReport.Text.Case
import LintReport.Text.Numeral

namespace LintReport.Log

abbrev Level := Int

namespace Level

def critical : Level := 50
def error : Level := 40
def warning : Level := 30
def info : Level := 20
def debug : Level := 10
def trace : Level := 5
def unset : Level := 0

def names : List (Level × Text) :=
  [(critical, "CRITICAL".toList), (error, "ERROR".toList), (warning, "WARNING".toList),
    (info, "INFO".toList), (debug, "DEBUG".toList), (trace, "TRACE".toList),
    (unset, "NOTSET".toList)]

def name (level : Level) : Text :=
  match names.lookup level with
  | some name => name
  | none => "Level ".toList ++ Text.Numeral.ofInt level

/-- What the levels are called in the environment. -/
def byName : List (Text × Level) :=
  [("TRACE".toList, trace), ("DEBUG".toList, debug), ("INFO".toList, info),
    ("WARNING".toList, warning), ("WARN".toList, warning), ("ERROR".toList, error),
    ("CRITICAL".toList, critical), ("FATAL".toList, critical), ("NOTSET".toList, unset)]

def asked (text : Text) : Text := Text.upper (Text.trim text)

def ofEnvironment (value : Option Text) : Except Text.Numeral.Error (Option Level) :=
  match value with
  | none | some [] => .ok none
  | some text =>
    if asked text ≠ [] ∧ (asked text).all Text.isDigit then
      match Text.Numeral.read (asked text) with
      | .ok n => .ok (some n)
      | .error e => .error e
    else .ok (byName.lookup (asked text))

/-- The value is taken for a number, since all its characters look like digits, but it is not one of
decimal digits or is too long. -/
def Unreadable (value : Option Text) : Prop :=
  ∃ text, value = some text ∧ asked text ≠ [] ∧ (∀ c ∈ asked text, Text.isDigit c = true) ∧
    ¬ ((∀ c ∈ asked text, Text.isDecimal c = true) ∧ (asked text).length ≤ Text.Numeral.maxDigits)

theorem ofEnvironment_some {text : Text} (h : text ≠ []) :
    ofEnvironment (some text) =
      if asked text ≠ [] ∧ (asked text).all Text.isDigit then
        (Text.Numeral.read (asked text)).map fun n : Nat => some (n : Level)
      else .ok (byName.lookup (asked text)) := by
  cases text with
  | nil => exact absurd rfl h
  | cons c cs =>
    change (if asked (c :: cs) ≠ [] ∧ (asked (c :: cs)).all Text.isDigit = true then _ else _) = _
    congr 1
    cases Text.Numeral.read (asked (c :: cs)) <;> rfl

/-- Only values that are taken for numbers and are none cannot be read. -/
theorem exists_ofEnvironment_eq_error_iff {value : Option Text} :
    (∃ e, ofEnvironment value = .error e) ↔ Unreadable value := by
  match value with
  | none => simp [ofEnvironment, Unreadable]
  | some [] => simp [ofEnvironment, Unreadable, asked, Text.trim, Text.trimLeft, Text.trimRight,
      Text.upper]
  | some (c :: cs) =>
    have reading := @Text.Numeral.exists_read_eq_error_iff (asked (c :: cs))
    rw [ofEnvironment_some (List.cons_ne_nil c cs)]
    by_cases number : asked (c :: cs) ≠ [] ∧ (asked (c :: cs)).all Text.isDigit = true
    · rw [if_pos number]
      have outcome :
          (∃ e, ((Text.Numeral.read (asked (c :: cs))).map fun n : Nat => some (n : Level)) =
            .error e) ↔ ∃ e, Text.Numeral.read (asked (c :: cs)) = .error e := by
        cases Text.Numeral.read (asked (c :: cs)) <;> simp [Except.map]
      rw [outcome, reading]
      constructor
      · exact fun h => ⟨c :: cs, rfl, number.1, List.all_eq_true.mp number.2, h⟩
      · intro unreadable
        obtain ⟨text, same, -, -, h⟩ := unreadable
        cases same
        exact h
    · rw [if_neg number]
      constructor
      · intro h
        obtain ⟨e, h⟩ := h
        cases h
      · intro h
        obtain ⟨text, same, nonempty, digits, -⟩ := h
        cases same
        exact absurd ⟨nonempty, List.all_eq_true.mpr digits⟩ number

@[simp] theorem ofEnvironment_unset : ofEnvironment none = .ok none := rfl

end Level

end LintReport.Log
