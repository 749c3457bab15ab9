/-
  LintReport.Text.Quoted — a text written between quotes on one line, everything that would not
  show as itself escaped.

  The quote is `'`, unless the text holds that one and not `"`. The quote and the backslash are
  escaped with a backslash, tab and line breaks by letter, and any other code point that is not
  printable by its hexadecimal number: two digits after `x`, four after `u` or eight after `U`.
  A text read from JSON may hold half a surrogate pair, so what is quoted is a list of symbols.
-/

import LintReport.Text.Basic
import LintReport.Text.Printable

namespace LintReport.Text

/-- A character, or one half of a surrogate pair standing alone, by its code. -/
inductive Symbol where
  | char (c : Char)
  | half (code : Nat)
  deriving DecidableEq, Repr

def Symbol.code : Symbol → Nat
  | .char c => c.toNat
  | .half code => code

/-- The character; a lone half of a pair has none, and the replacement character stands for it. -/
def Symbol.toChar : Symbol → Char
  | .char c => c
  | .half _ => '\ufffd'

def Symbol.isHalf : Symbol → Bool
  | .char _ => false
  | .half _ => true

def symbols (s : Text) : List Symbol := s.map .char

def ofSymbols (s : List Symbol) : Text := s.map Symbol.toChar

@[simp] theorem ofSymbols_symbols (s : Text) : ofSymbols (symbols s) = s := by
  simp [ofSymbols, symbols, Function.comp_def, Symbol.toChar]

/-- Only a half is not written as it is. -/
theorem symbols_ofSymbols {s : List Symbol} (h : s.any Symbol.isHalf = false) :
    symbols (ofSymbols s) = s := by
  induction s with
  | nil => rfl
  | cons x s ih =>
    cases x with
    | char c =>
      have rest := ih (by simpa [Symbol.isHalf] using h)
      exact congrArg (.char c :: ·) rest
    | half code => simp [Symbol.isHalf] at h

theorem symbols_inj {s t : Text} (h : symbols s = symbols t) : s = t := by
  rw [← ofSymbols_symbols s, h, ofSymbols_symbols]

namespace Quoted

def hex (width code : Nat) : Text :=
  (List.range width).reverse.map fun i => Nat.digitChar (code / Nat.pow 16 i % 16)

def escapeCode (code : Nat) : Text :=
  if code ≤ 0xFF then '\\' :: 'x' :: hex 2 code
  else if code ≤ 0xFFFF then '\\' :: 'u' :: hex 4 code
  else '\\' :: 'U' :: hex 8 code

def writeSymbol (quote : Char) : Symbol → Text
  | .half code => escapeCode code
  | .char c =>
    if c = quote ∨ c = '\\' then ['\\', c]
    else if c = '\n' then "\\n".toList
    else if c = '\r' then "\\r".toList
    else if c = '\t' then "\\t".toList
    else if isPrintable c.toNat then [c]
    else escapeCode c.toNat

def quoteOf (s : List Symbol) : Char :=
  if Symbol.char '\'' ∈ s ∧ Symbol.char '"' ∉ s then '"' else '\''

def write (s : List Symbol) : Text :=
  quoteOf s :: (s.flatMap (writeSymbol (quoteOf s)) ++ [quoteOf s])

def ofText (s : Text) : Text := write (symbols s)

end Quoted

end LintReport.Text
