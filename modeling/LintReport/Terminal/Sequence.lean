/-
  LintReport.Terminal.Sequence — control sequences in a text, and the text without them.

  A control sequence begins with ESC and `[`, goes on with parameter characters (`0` to `?`) and
  then intermediate ones (space to `/`), and ends with one final character (`@` to `~`). Where one
  of these is missing there is no sequence, and the characters stand for themselves.

  Which texts are sequences and how they are removed (`sequenceRule`, `unstyled`), one pass from left
  to right, is said by the console library the program prints with, outside of it.

  Proved:
  - `unstyled_eq_self`: a text without ESC is left as it is.
  - `unstyled_code_append`: a numbered code in front of a text does not show.
-/

import LintReport.Text.Substitute
import LintReport.Text.Numeral

namespace LintReport.Terminal

open Text (Rule Hit substitute)

def esc : Char := '\x1b'

def isParameter (c : Char) : Bool := '0' ≤ c && c ≤ '?'

def isIntermediate (c : Char) : Bool := ' ' ≤ c && c ≤ '/'

def isFinal (c : Char) : Bool := '@' ≤ c && c ≤ '~'

def sequenceRule : Rule
  | c :: d :: rest =>
    if c = esc ∧ d = '[' then
      let parameters := (rest.takeWhile isParameter).length
      let afterParameters := rest.drop parameters
      let intermediates := (afterParameters.takeWhile isIntermediate).length
      match (afterParameters.drop intermediates).head? with
      | some c => if isFinal c then some ⟨parameters + intermediates + 2, []⟩ else none
      | none => none
    else none
  | _ => none

/-- The text as it shows, its control sequences removed. -/
def unstyled (s : Text) : Text := substitute sequenceRule s

def visibleLength (s : Text) : Nat := (unstyled s).length

def code (n : Nat) : Text := esc :: '[' :: (Text.Numeral.ofNat n ++ ['m'])

theorem sequenceRule_of_ne {c : Char} (h : c ≠ esc) (cs : Text) :
    sequenceRule (c :: cs) = none := by
  cases cs with
  | nil => rfl
  | cons d ds => simp [sequenceRule, h]

/-- A text without ESC is left as it is. -/
theorem unstyled_eq_self {s : Text} (h : esc ∉ s) : unstyled s = s := by
  refine Text.substitute_eq_self fun t ht => ?_
  cases t with
  | nil => rfl
  | cons c cs => exact sequenceRule_of_ne (fun hc => h (ht.mem (hc ▸ List.mem_cons_self))) cs

theorem isParameter_of_isDigit {c : Char} (h : c.isDigit = true) : isParameter c = true := by
  simp only [Char.isDigit, Bool.and_eq_true, decide_eq_true_eq] at h
  simp only [isParameter, Bool.and_eq_true, decide_eq_true_eq, Char.le_def]
  exact ⟨h.1, UInt32.le_trans h.2 (by decide)⟩

theorem takeWhile_parameters (n : Nat) (s : Text) :
    (Text.Numeral.ofNat n ++ 'm' :: s).takeWhile isParameter = Text.Numeral.ofNat n := by
  have digits : ∀ c ∈ Text.Numeral.ofNat n, isParameter c = true :=
    fun c hc => isParameter_of_isDigit (Text.Numeral.ofNat_isDigit hc)
  rw [List.takeWhile_append_of_pos digits]
  simp [show isParameter 'm' = false by decide]

theorem code_append (n : Nat) (s : Text) :
    code n ++ s = esc :: '[' :: (Text.Numeral.ofNat n ++ 'm' :: s) := by
  simp [code]

/-- A numbered code in front of a text does not show. -/
theorem unstyled_code_append (n : Nat) (s : Text) : unstyled (code n ++ s) = unstyled s := by
  have hit : sequenceRule (esc :: '[' :: (Text.Numeral.ofNat n ++ 'm' :: s)) =
      some ⟨(Text.Numeral.ofNat n).length + 2, []⟩ := by
    simp [sequenceRule, takeWhile_parameters, show isIntermediate 'm' = false by decide,
      show isFinal 'm' = true by decide]
  rw [code_append, unstyled, Text.substitute_of_hit hit]
  simp [unstyled]

end LintReport.Terminal
