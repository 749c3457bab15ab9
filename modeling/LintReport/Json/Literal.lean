/-
  LintReport.Json.Literal — a JSON value written on one line for a log record.

  Truth values and null are capitalised words, texts stand between quotes, and the parts of an
  array or object are separated by a comma and a space.
-/

import LintReport.Json.Value
import LintReport.Number.Shortest

namespace LintReport.Json

open Text (Quoted.write)

def comma : Text := ", ".toList

mutual

def Value.write : Value → Text
  | .null => "None".toList
  | .bool b => if b then "True".toList else "False".toList
  | .int n => Text.Numeral.ofInt n
  | .float x => x.write
  | .text s => Quoted.write s
  | .array items => '[' :: (Text.join comma (writeItems items) ++ [']'])
  | .object members => '\x7b' :: (Text.join comma (writeMembers members) ++ ['\x7d'])

def writeItems : List Value → List Text
  | [] => []
  | v :: vs => v.write :: writeItems vs

def writeMembers : List (Key × Value) → List Text
  | [] => []
  | (key, v) :: ms => (Quoted.write key ++ ": ".toList ++ v.write) :: writeMembers ms

end

/-- The value as a cell shows it: a text without quotes. -/
def Value.display : Value → Text
  | .text s => Text.ofSymbols s
  | v => v.write

end LintReport.Json
