/-
  LintReport.Json.Fault — what can be wrong with a JSON text, and where.

  A position is the count of characters before it; in a message it is given also by line and
  column, both from one.
-/

import LintReport.Text.Numeral

namespace LintReport.Json

open Text (Numeral.ofNat)

inductive Cause where
  | byteOrderMark
  | value
  | propertyName
  | colon
  | comma
  | extraData
  | unterminatedText
  | controlCharacter
  | escape
  | unicodeEscape
  deriving DecidableEq, Repr

def Cause.message : Cause → Text
  | .byteOrderMark => "Unexpected UTF-8 BOM (decode using utf-8-sig)".toList
  | .value => "Expecting value".toList
  | .propertyName => "Expecting property name enclosed in double quotes".toList
  | .colon => "Expecting ':' delimiter".toList
  | .comma => "Expecting ',' delimiter".toList
  | .extraData => "Extra data".toList
  | .unterminatedText => "Unterminated string starting at".toList
  | .controlCharacter => "Invalid control character at".toList
  | .escape => "Invalid \\escape".toList
  | .unicodeEscape => "Invalid \\uXXXX escape".toList

inductive Fault where
  /-- The text is no JSON at this position. -/
  | malformed (cause : Cause) (position : Nat)
  /-- An integer in it is too long to be read. -/
  | numeral (error : Text.Numeral.Error)
  deriving DecidableEq, Repr

def place (text : Text) (position : Nat) : Nat × Nat :=
  let before := text.take position
  (before.count '\n' + 1, (before.reverse.takeWhile (· ≠ '\n')).length + 1)

def describe (text : Text) (cause : Cause) (position : Nat) : Text :=
  let (line, column) := place text position
  cause.message ++ ": line ".toList ++ Numeral.ofNat line ++ " column ".toList
    ++ Numeral.ofNat column ++ " (char ".toList ++ Numeral.ofNat position ++ [')']

end LintReport.Json
