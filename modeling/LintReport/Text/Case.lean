/-
  LintReport.Text.Case — texts compared with names of ASCII letters, whatever their case.

  Some letters outside ASCII have an ASCII form in the other case: the dotless i is an I in upper
  case, the long s an S, a ligature its letters one by one, and the Kelvin sign a k in lower case.
  A letter with no such form cannot spell an ASCII name in either case and is kept as it is.
-/

import LintReport.Text.Basic

namespace LintReport.Text

/-- The letters outside ASCII whose upper-case form is ASCII, with that form. -/
def asciiUppers : List (Char × Text) :=
  [('ß', "SS".toList), ('ı', "I".toList), ('ſ', "S".toList), ('\ufb00', "FF".toList),
    ('\ufb01', "FI".toList), ('\ufb02', "FL".toList), ('\ufb03', "FFI".toList),
    ('\ufb04', "FFL".toList), ('\ufb05', "ST".toList), ('\ufb06', "ST".toList)]

def upperChar (c : Char) : Text :=
  match asciiUppers.lookup c with
  | some form => form
  | none => [c.toUpper]

/-- The text in upper case, as far as that makes it ASCII. -/
def upper (s : Text) : Text := s.flatMap upperChar

/-- The Kelvin sign is the one letter outside ASCII whose lower-case form is ASCII. -/
def lowerChar (c : Char) : Char := if c = '\u212a' then 'k' else c.toLower

def lower (s : Text) : Text := s.map lowerChar

end LintReport.Text
