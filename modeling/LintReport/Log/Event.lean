/-
  LintReport.Log.Event — what is noted in the log while a report is made.

  Each event has a level, a message, and a site: the names of the file and the function under
  which the detailed layout shows it. Only totals can have numbers that are too long to be written,
  being sums; all others have been read or count what has been.
-/

import LintReport.Json.Literal
import LintReport.Log.Level
import LintReport.Report

namespace LintReport.Log

open Text (Numeral.ofNat Numeral.ofInt Numeral.write)

inductive Event where
  /-- The results are neither a list nor null. -/
  | notAList (value : Json.Value)
  /-- An item of the results is no object. -/
  | malformedFile (item : Json.Value)
  /-- An item of a file's messages is no object. -/
  | malformedFinding (path : Text) (item : Json.Value)
  | unknownSeverity (severity : Int)
  | unknownScope (version : Json.Value)
  | loaded (files : Nat)
  | formatting (files : Nat) (source : Text)
  | scope (scope : Scope)
  | split (files withNew : Nat)
  /-- A file without findings is left out of the report. -/
  | left (path : Text)
  | rendered (findings : Nat) (path : Text)
  | totals (errors warnings : Int) (emphasis : Emphasis)

structure Site where
  file : Text
  line : Nat
  function : Text
  deriving DecidableEq, Repr

namespace Event

def level : Event → Level
  | notAList _ | malformedFile _ | malformedFinding _ _ => Level.warning
  | unknownSeverity _ | unknownScope _ | loaded _ => Level.debug
  | formatting _ _ => Level.info
  | scope _ | split _ _ | totals _ _ _ => Level.debug
  | left _ | rendered _ _ => Level.trace

def message : Event → Text
  | notAList value => "Expected a list of file results, got ".toList ++ value.kind
  | malformedFile item => "Skipping malformed file result: ".toList ++ item.write
  | malformedFinding path item =>
    "Skipping malformed message in ".toList ++ path ++ ": ".toList ++ item.write
  | unknownSeverity severity =>
    "Unknown severity ".toList ++ Numeral.ofInt severity ++ ", treating as warning".toList
  | unknownScope version =>
    "Unknown format version ".toList ++ version.write ++ ", treating as fullFile".toList
  | loaded files => "Loaded ".toList ++ Numeral.ofNat files ++ " file result(s)".toList
  | formatting files source =>
    "Formatting ".toList ++ Numeral.ofNat files ++ " file result(s) from ".toList ++ source
  | scope s => "Format mode: ".toList ++ s.name
  | split files withNew =>
    "Partitioned ".toList ++ Numeral.ofNat files ++ " file(s): ".toList ++ Numeral.ofNat withNew
      ++ " with new-line diagnostics".toList
  | left path => "Skipping ".toList ++ path ++ ": no messages".toList
  | rendered findings path =>
    "Rendered ".toList ++ Numeral.ofNat findings ++ " message(s) for ".toList ++ path
  | totals errors warnings emphasis =>
    "Report totals: ".toList ++ Numeral.ofInt errors ++ " error(s), ".toList
      ++ Numeral.ofInt warnings ++ " warning(s), color=".toList ++ emphasis.name

def isWritable : Event → Bool
  | totals errors warnings _ => (Numeral.write errors).isOk && (Numeral.write warnings).isOk
  | _ => true

def site (e : Event) : Site :=
  let under (file function : String) : Site := ⟨file.toList, 0, function.toList⟩
  match e with
  | notAList _ | malformedFile _ | loaded _ => under "loaders.py" "load_results"
  | malformedFinding _ _ => under "loaders.py" "load_file_result"
  | unknownSeverity _ => under "loaders.py" "_as_severity"
  | unknownScope _ => under "loaders.py" "_as_format_mode"
  | formatting _ _ => under "main.py" "cli"
  | scope _ => under "partition.py" "get_output"
  | split _ _ => under "partition.py" "partition_results"
  | left _ | rendered _ _ => under "renderer.py" "build_result"
  | totals _ _ _ => under "formatter.py" "format_report"

end Event

end LintReport.Log
