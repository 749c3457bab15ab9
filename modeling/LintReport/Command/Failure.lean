/-
  LintReport.Command.Failure — how a run of the command can end.

  Each exit code says one thing. A failure has a message for the user. Where the program itself
  breaks off, there is none.
-/

import LintReport.Text.Utf8
import LintReport.Text.Quoted

namespace LintReport.Command

inductive ExitCode where
  | success
  /-- The report holds an error. -/
  | lintErrors
  /-- The arguments are not understood. -/
  | arguments
  /-- The arguments contradict each other. -/
  | usageError
  | dataError
  | fileNotFound
  | ioError
  deriving DecidableEq, Repr

def ExitCode.code : ExitCode → Nat
  | .success => 0
  | .lintErrors => 1
  | .arguments => 2
  | .usageError => 64
  | .dataError => 65
  | .fileNotFound => 66
  | .ioError => 74

inductive OpenError where
  | isDirectory
  | notDirectory
  | nameTooLong
  | other (number : Nat) (text : Text)
  deriving DecidableEq, Repr

def OpenError.number : OpenError → Nat
  | .isDirectory => 21
  | .notDirectory => 20
  | .nameTooLong => 36
  | .other number _ => number

def OpenError.text : OpenError → Text
  | .isDirectory => "Is a directory".toList
  | .notDirectory => "Not a directory".toList
  | .nameTooLong => "File name too long".toList
  | .other _ text => text

def OpenError.message (path : Text) (e : OpenError) : Text :=
  "[Errno ".toList ++ Text.Numeral.ofNat e.number ++ "] ".toList ++ e.text ++ ": ".toList
    ++ Text.Quoted.ofText path

inductive Failure where
  | verbosityConflict
  /-- The results are no JSON, for the reason told. -/
  | malformedResults (complaint : Text)
  | notUtf8 (path : Text)
  | notFound (path : Text)
  | unreadable (path : Text) (error : OpenError)
  deriving DecidableEq, Repr

namespace Failure

def exitCode : Failure → ExitCode
  | verbosityConflict => .usageError
  | malformedResults _ | notUtf8 _ => .dataError
  | notFound _ => .fileNotFound
  | unreadable _ _ => .ioError

def message : Failure → Text
  | verbosityConflict =>
    "The '--verbose' and '--quiet' options are mutually exclusive.".toList
  | malformedResults complaint => complaint
  | notUtf8 path => "Results file is not valid UTF-8: ".toList ++ path
  | notFound path => "Results file not found: ".toList ++ path
  | unreadable path error =>
    "Cannot read results file ".toList ++ path ++ ": ".toList ++ error.message path

end Failure

/-- An error the program does not handle. -/
inductive Crash where
  | numeral (error : Text.Numeral.Error)
  | utf8 (error : Text.Utf8.Error)
  /-- A path holds the character that ends every path. -/
  | nullInPath
  /-- Half of a surrogate pair, which has no octets, is to be written. -/
  | halfInOutput
  deriving DecidableEq, Repr

def Crash.message : Crash → Text
  | .numeral error => error.message
  | .utf8 error => error.message
  | .nullInPath => "embedded null byte".toList
  | .halfInOutput => "surrogates not allowed".toList

end LintReport.Command
