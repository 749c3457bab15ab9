/-
  LintReport.Proofs.Log.Level — what is made of every value of the environment's variable.

  A value is taken for a number when, blanks and case apart, all its characters look like digits.
  That it can then be read is not said by this: some characters look like digits and build no
  decimal number, and a number may have too many digits. Where the reading fails no level is
  settled, and what needed it fails as well, though a value that is neither a number nor a name is
  meant to ask for nothing.

  Proved:
  - `ofEnvironment_cases`: the values that ask for a level, those that ask for none, and those that
    cannot be read, with what they are refused with.
  - `ofEnvironment_superscript`: a value that is no number and no name, and is not passed over.
-/

import LintReport.Log.Level
import LintReport.Proofs.Text.Lookup
import LintReport.Proofs.Text.Numeral

namespace LintReport.Log.Level

open Text (isDecimal isDigit)
open Text.Numeral (Denotes maxDigits)

def LooksNumeric (s : Text) : Prop := s ≠ [] ∧ ∀ c ∈ s, isDigit c = true

instance : DecidablePred LooksNumeric := fun _ => inferInstanceAs (Decidable (_ ∧ _))

/-! ## Names -/

def IsName (s : Text) : Prop := ∃ level, (s, level) ∈ byName

theorem lookup_byName_eq_some_iff {s : Text} {level : Level} :
    byName.lookup s = some level ↔ (s, level) ∈ byName := by
  have own : ∀ m ∈ byName, byName.lookup m.1 = some m.2 := by decide
  exact lookup_iff_mem own

theorem lookup_byName_eq_none_iff {s : Text} : byName.lookup s = none ↔ ¬ IsName s := by
  rw [Option.eq_none_iff_forall_ne_some, IsName, not_exists]
  exact forall_congr' fun level => not_congr lookup_byName_eq_some_iff

theorem IsName.not_looksNumeric {s : Text} (h : IsName s) : ¬ LooksNumeric s := by
  obtain ⟨level, h⟩ := h
  have letters : ∀ entry ∈ byName, ¬ LooksNumeric entry.1 := by decide
  exact letters _ h

theorem looksNumeric_of_denotes {s : Text} {n : Nat} (nonempty : s ≠ []) (h : Denotes s n) :
    LooksNumeric s := by
  refine ⟨nonempty, fun c hc => ?_⟩
  have decimal := (Text.Numeral.denotes_iff.mp h).1 c hc
  simp [isDigit, decimal]

/-! ## Values -/

variable {text : Text}

theorem ofEnvironment_of_looksNumeric (h : LooksNumeric (asked text)) :
    ofEnvironment (some text) =
      (Text.Numeral.read (asked text)).map fun n : Nat => some (n : Level) := by
  have nonempty : text ≠ [] := by
    rintro rfl
    exact h.1 rfl
  rw [ofEnvironment_some nonempty, if_pos ⟨h.1, List.all_eq_true.mpr h.2⟩]

theorem ofEnvironment_of_not_looksNumeric (h : ¬ LooksNumeric (asked text)) :
    ofEnvironment (some text) = .ok (byName.lookup (asked text)) := by
  cases text with
  | nil => rfl
  | cons c text =>
    refine (ofEnvironment_some (List.cons_ne_nil c text)).trans (if_neg fun number => h ?_)
    exact ⟨number.1, List.all_eq_true.mp number.2⟩

def IsNumber (s : Text) (n : Nat) : Prop := s ≠ [] ∧ Denotes s n ∧ s.length ≤ maxDigits

/-- A value asks for the number that it is, or for the level that it names. -/
theorem ofEnvironment_eq_level_iff {level : Level} :
    ofEnvironment (some text) = .ok (some level) ↔
      (∃ n : Nat, IsNumber (asked text) n ∧ level = n) ∨ (asked text, level) ∈ byName := by
  by_cases number : LooksNumeric (asked text)
  · have unnamed : (asked text, level) ∉ byName :=
      fun h => IsName.not_looksNumeric ⟨level, h⟩ number
    rw [ofEnvironment_of_looksNumeric number]
    constructor
    · intro h
      cases read : Text.Numeral.read (asked text) with
      | error e =>
        rw [read] at h
        cases h
      | ok n =>
        rw [read] at h
        cases h
        exact .inl ⟨n, ⟨number.1, Text.Numeral.read_eq_ok_iff.mp read⟩, rfl⟩
    · rintro (⟨n, ⟨-, readable⟩, rfl⟩ | named)
      · rw [Text.Numeral.read_eq_ok_iff.mpr readable]
        rfl
      · exact absurd named unnamed
  · rw [ofEnvironment_of_not_looksNumeric number, Except.ok.injEq, lookup_byName_eq_some_iff]
    constructor
    · exact .inr
    · rintro (⟨n, ⟨nonempty, denotes, -⟩, -⟩ | named)
      · exact absurd (looksNumeric_of_denotes nonempty denotes) number
      · exact named

/-- A value asks for nothing if it neither looks like a number nor names a level. -/
theorem ofEnvironment_eq_none_iff :
    ofEnvironment (some text) = .ok none ↔
      ¬ LooksNumeric (asked text) ∧ ¬ IsName (asked text) := by
  by_cases number : LooksNumeric (asked text)
  · rw [ofEnvironment_of_looksNumeric number]
    refine ⟨fun h => ?_, fun h => absurd number h.1⟩
    cases read : Text.Numeral.read (asked text) <;> rw [read] at h <;> cases h
  · rw [ofEnvironment_of_not_looksNumeric number, Except.ok.injEq, lookup_byName_eq_none_iff]
    exact ⟨fun h => ⟨number, h⟩, fun h => h.2⟩

/-- A value that looks like a number is refused for what its reading is refused for. -/
theorem ofEnvironment_eq_error_iff {e : Text.Numeral.Error} :
    ofEnvironment (some text) = .error e ↔
      LooksNumeric (asked text) ∧ Text.Numeral.read (asked text) = .error e := by
  by_cases number : LooksNumeric (asked text)
  · rw [ofEnvironment_of_looksNumeric number]
    cases read : Text.Numeral.read (asked text) with
    | ok n => exact ⟨nofun, nofun⟩
    | error refused => simp [Except.map, number]
  · rw [ofEnvironment_of_not_looksNumeric number]
    exact ⟨nofun, fun h => absurd h.1 number⟩

/-- Every value of the variable, set or not, is one of three. It asks for a level if, blanks and
case apart, it is a decimal number of any script within the limit, or a name. It asks for none if it
neither looks like a number nor is a name. And it cannot be read if it looks like a number and has
too many digits, or a character that only looks like one. -/
theorem ofEnvironment_cases (value : Option Text) :
    (∀ level, ofEnvironment value = .ok (some level) ↔ ∃ text, value = some text ∧
      ((∃ n : Nat, IsNumber (asked text) n ∧ level = n) ∨ (asked text, level) ∈ byName)) ∧
      (ofEnvironment value = .ok none ↔ ¬ ∃ text, value = some text ∧
        (LooksNumeric (asked text) ∨ IsName (asked text))) ∧
      ∀ e, ofEnvironment value = .error e ↔ ∃ text, value = some text ∧
        LooksNumeric (asked text) ∧
          let run := (asked text).takeWhile isDecimal
          (maxDigits < run.length ∧ e = .tooLongToRead run.length ∨
            run.length ≤ maxDigits ∧ (∃ c ∈ asked text, isDecimal c = false) ∧
              e = .notDecimal (asked text)) := by
  cases value with
  | none => simp [ofEnvironment]
  | some text =>
    simp only [Option.some.injEq, exists_eq_left']
    refine ⟨fun level => ofEnvironment_eq_level_iff, ?_, fun e => ?_⟩
    · rw [ofEnvironment_eq_none_iff, not_or]
    · rw [ofEnvironment_eq_error_iff, Text.Numeral.read_eq_error_iff]

/-- A superscript is neither a decimal number nor a name, but it looks like a number: the value is
refused, and not passed over. -/
theorem ofEnvironment_superscript :
    (∀ n, ¬ Denotes (asked ['²']) n) ∧ ¬ IsName (asked ['²']) ∧
      ofEnvironment (some ['²']) ≠ .ok none ∧
      ofEnvironment (some ['²']) = .error (.notDecimal ['²']) := by
  have refused : ofEnvironment (some ['²']) = .error (.notDecimal ['²']) := rfl
  refine ⟨fun n denotes => ?_, ?_, ?_, refused⟩
  · exact absurd (Text.Numeral.denotes_iff.mp denotes).1 (by decide)
  · rw [← lookup_byName_eq_none_iff]
    rfl
  · rw [refused]
    exact nofun

end LintReport.Log.Level
