/-
  LintReport.Text.Numeral — integers in decimal, read and written up to a greatest length.

  Reading and writing take time that grows with the square of the length, so numerals of more than
  `maxDigits` digits, the sign not counted, are refused on both ways.

  Proved:
  - `ofNat_isDigit` / `ofNat_ne_nil`: a natural number is written in ASCII digits, at least one.
  - `exists_read_eq_error_iff`: what cannot be read has other characters than decimal digits in it
    or is too long.
-/

import LintReport.Text.Basic
import LintReport.Text.Digit
import LintReport.Text.Quoted

namespace LintReport.Text.Numeral

def maxDigits : Nat := 4300

inductive Error where
  /-- So many digits are too many to read. -/
  | tooLongToRead (digits : Nat)
  | tooLongToWrite
  /-- A character that only looks like a digit stands in the numeral. -/
  | notDecimal (text : Text)
  deriving DecidableEq, Repr

def ofNat (n : Nat) : Text := Nat.toDigits 10 n

def ofInt : Int → Text
  | .ofNat n => ofNat n
  | .negSucc n => '-' :: ofNat (n + 1)

def Error.message : Error → Text
  | .tooLongToRead digits =>
    "Exceeds the limit (".toList ++ ofNat maxDigits
      ++ " digits) for integer string conversion: value has ".toList ++ ofNat digits
      ++ " digits; use sys.set_int_max_str_digits() to increase the limit".toList
  | .tooLongToWrite =>
    "Exceeds the limit (".toList ++ ofNat maxDigits
      ++ " digits) for integer string conversion".toList
      ++ "; use sys.set_int_max_str_digits() to increase the limit".toList
  | .notDecimal text =>
    "invalid literal for int() with base 10: ".toList ++ (Quoted.ofText text).take 200

def write (n : Int) : Except Error Text :=
  if (ofNat n.natAbs).length ≤ maxDigits then .ok (ofInt n) else .error .tooLongToWrite

def ofDigits (digits : Text) : Nat :=
  digits.foldl (fun n c => 10 * n + (c.toNat - '0'.toNat)) 0

def readDigits (digits : Text) : Except Error Nat :=
  if digits.length ≤ maxDigits then .ok (ofDigits digits) else .error (.tooLongToRead digits.length)

/-- Reads a run of decimal digits of any script. Its length is checked up to the first character
that is none. -/
def read (text : Text) : Except Error Nat :=
  let run := text.takeWhile isDecimal
  if run.length > maxDigits then .error (.tooLongToRead run.length)
  else if run.length < text.length then .error (.notDecimal text)
  else .ok (run.foldl (fun n c => 10 * n + (digitValue? c).getD 0) 0)

theorem ofNat_ne_nil (n : Nat) : ofNat n ≠ [] := Nat.toDigits_ne_nil

theorem ofNat_isDigit {n : Nat} {c : Char} (h : c ∈ ofNat n) : c.isDigit = true :=
  Nat.isDigit_of_mem_toDigits (by decide) (by decide) h

theorem readDigits_eq_error_iff {digits : Text} {e : Error} :
    readDigits digits = .error e ↔
      maxDigits < digits.length ∧ e = .tooLongToRead digits.length := by
  unfold readDigits
  split <;> simp [eq_comm] <;> omega

/-- What cannot be read has other characters than decimal digits in it or is too long. -/
theorem exists_read_eq_error_iff {text : Text} :
    (∃ e, read text = .error e) ↔
      ¬ ((∀ c ∈ text, isDecimal c = true) ∧ text.length ≤ maxDigits) := by
  unfold read
  by_cases all : ∀ c ∈ text, isDecimal c = true
  · have run : text.takeWhile isDecimal = text := by
      rw [← List.append_nil text, List.takeWhile_append_of_pos (by simpa using all)]
      simp
    simp only [run, Nat.lt_irrefl, if_false]
    by_cases long : maxDigits < text.length
    · rw [if_pos long]
      exact ⟨fun _ h => absurd h.2 (by omega), fun _ => ⟨_, rfl⟩⟩
    · rw [if_neg long]
      exact ⟨nofun, fun h => absurd ⟨all, by omega⟩ h⟩
  · have short : (text.takeWhile isDecimal).length < text.length := by
      refine Nat.lt_of_le_of_ne (List.takeWhile_prefix _).length_le fun h => all ?_
      have whole := (List.takeWhile_prefix isDecimal).eq_of_length h
      intro c hc
      exact List.all_eq_true.mp List.all_takeWhile c (whole.symm ▸ hc)
    simp only [short, if_true, all, false_and, not_false_eq_true, iff_true]
    split
    · exact ⟨_, rfl⟩
    · exact ⟨_, rfl⟩

end LintReport.Text.Numeral
