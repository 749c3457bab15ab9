/-
  LintReport.Command.Run — a run of the command, from its arguments to its exit code.

  The arguments are read first, then the environment; then the log level and the colours are
  settled. Only then are the results read, and the report on them is printed. Whatever fails on the
  way ends the run. Before the colours are settled a run writes none, and leaves the ones of earlier
  runs as they are.

  Some of it is done outside of the program: the option parser reads the arguments and, for a help
  text or an error in them, ends the run itself; the system opens files (`openFile`) and says
  whether the output is a terminal. The standard input is taken for strict UTF-8, whatever the
  locale, and its line ends, like those of a file, are read as line feeds (`Text.Newline.normalize`).
  The standard output is UTF-8 too, which has no octets for half of a surrogate pair.

  Proved:
  - `run_coloring_irrelevant`: what a run writes and how it ends does not depend on the colours
    that were on when it began.
-/

import LintReport.Command.Console
import LintReport.Command.Help
import LintReport.Command.Options
import LintReport.Command.Path
import LintReport.Finding.Reading
import LintReport.Log.Logger
import LintReport.Report.Summary
import LintReport.Text.Newline

namespace LintReport.Command

open Terminal (Coloring)
open Log (Event Level Logger)

structure Invocation where
  /-- What the command is called in its usage. -/
  program : Text
  arguments : List Text
  environment : Environment
  isTerminal : Bool
  input : List UInt8
  openFile : Path → Opened

inductive Ending where
  | exit (code : ExitCode)
  | crash (cause : Crash)
  deriving DecidableEq, Repr

def Ending.status : Ending → Nat
  | .exit code => code.code
  | .crash _ => 1

structure Outcome where
  ending : Ending
  output : Text := []
  errors : Text := []
  /-- The colours that are on afterwards. -/
  coloring : Coloring
  deriving DecidableEq, Repr

inductive Stop where
  | failure (cause : Failure)
  | crash (cause : Crash)
  deriving DecidableEq, Repr

def Stop.outcome (coloring : Coloring) (logged : Text) : Stop → Outcome
  | .failure f =>
    { ending := .exit f.exitCode, errors := logged ++ Console.failed coloring f.message, coloring }
  | .crash c => { ending := .crash c, errors := logged, coloring }

/-! ## Reading -/

def Invocation.results (w : Invocation) (source : Text) : Except Stop Text :=
  if source = ['-'] then
    match Text.Utf8.decode w.input with
    | .ok s => .ok (Text.Newline.normalize s)
    | .error e => .error (.crash (.utf8 e))
  else
    let path := Path.ofText source
    match w.openFile path with
    | .bytes content =>
      match Text.Utf8.decode content with
      | .ok s => .ok (Text.Newline.normalize s)
      | .error _ => .error (.failure (.notUtf8 path.write))
    | .missing => .error (.failure (.notFound path.write))
    | .refused e => .error (.failure (.unreadable path.write e))
    | .nullInPath => .error (.crash .nullInPath)

def readFiles (results : Text) : Except Stop (List FileFindings × List Event) :=
  match FileFindings.read results with
  | .ok r => .ok r
  | .error (.numeral e) => .error (.crash (.numeral e))
  | .error fault => .error (.failure (.malformedResults (Reading.complaint results fault)))

/-! ## Reporting -/

def errorStream : Nat := 2

def logged (coloring : Coloring) (level : Level) (events : List Event) : Text :=
  ((Logger.mk level []).setLevel level errorStream).written coloring errorStream
    (events.filterMap Event.record?)

def exitCodeOf (r : Report) : ExitCode := if 0 < r.counts.errors then .lintErrors else .success

/-- The report on the files that were read. Numbers that were read are not too long for its tables
(`Run.write`). With half of a surrogate pair to show, none of its text is written. -/
def reportOn (s : Settings) (coloring : Coloring) (level : Level) (files : List FileFindings)
    (events : List Event) (half : Bool) : Outcome :=
  let events := events ++ [.formatting files.length s.source]
  if files = [] then
    { ending := .exit .success, errors := logged coloring level events, coloring }
  else
    let report := Run.report coloring s.policy files
    let errors := logged coloring level (events ++ Run.renderEvents coloring s.policy files)
    match report.render coloring with
    | .error e => Stop.outcome coloring errors (.crash (.numeral e))
    | .ok text =>
      if half ∧ text ≠ [] then Stop.outcome coloring errors (.crash .halfInOutput)
      else
        { ending := .exit (exitCodeOf report)
          output := Console.printed coloring text false
          errors, coloring }

/-- The rest of a run, once level and colours are settled. -/
def Invocation.report (w : Invocation) (s : Settings) (coloring : Coloring) (level : Level) :
    Outcome :=
  match w.results s.source with
  | .error stop => stop.outcome coloring []
  | .ok text =>
    match readFiles text with
    | .error stop => stop.outcome coloring []
    | .ok (files, events) => reportOn s coloring level files events (Reading.showsHalf text)

def Invocation.level (w : Invocation) (s : Settings) : Except Stop Level :=
  match Level.ofEnvironment w.environment.logLevel with
  | .error e => .error (.crash (.numeral e))
  | .ok asked =>
    match s.level asked with
    | .error f => .error (.failure f)
    | .ok level => .ok level

/-- A run that begins with these colours on. -/
def Invocation.run (w : Invocation) (coloring : Coloring) : Outcome :=
  match Request.ofArguments w.arguments with
  | .error e =>
    { ending := .exit .arguments
      errors :=
        (if e.recallsUsage then Help.reminder w.program else []) ++ Console.failed .off e.message
      coloring }
  | .ok .help => { ending := .exit .success, output := Help.page w.program, coloring }
  | .ok .version => { ending := .exit .success, output := Help.version, coloring }
  | .ok (.report s) =>
    match w.level s with
    | .error stop => { stop.outcome .off [] with coloring }
    | .ok level => w.report s (s.coloring w.environment w.isTerminal) level

/-- What a run writes and how it ends does not depend on the colours that were on when it began. -/
theorem run_coloring_irrelevant (w : Invocation) (a b : Coloring) :
    { w.run a with coloring := b } = { w.run b with coloring := b } := by
  unfold Invocation.run
  split
  · rfl
  · rfl
  · rfl
  · split
    · rename_i stop _
      cases stop <;> rfl
    · rfl

end LintReport.Command
