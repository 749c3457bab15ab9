/-
  LintReport.Command.Process — the operations of one process, one after the other.

  Colours and logger belong to the process. What is painted is painted in the colours that are on at
  that moment, and what is noted goes through the logger as it is set up then. A run of the command
  sets both as soon as its arguments and its level are settled, the logger first, and leaves them so
  for whatever comes next; the colours of its own console are settled by the run alone.

  Proved:
  - `outcome_report`: a report is made in the colours that are on, and logged at the level set up.
  - `outcome_performIn`: in any process a run writes and ends as it does by itself
    (`Invocation.run`).
-/

import LintReport.Command.Run

namespace LintReport.Command

open Terminal (Coloring)
open Log (Event Level Logger)

structure Process where
  coloring : Coloring := .off
  logger : Logger := ⟨Level.warning, []⟩
  deriving DecidableEq, Repr

/-- A process in the middle of a run, with what that run has written so far. -/
structure Session extends Process where
  output : Text := []
  errors : Text := []
  deriving DecidableEq, Repr

namespace Session

def print (s : Text) : StateM Session Unit :=
  modify fun t => { t with output := t.output ++ s }

def complain (s : Text) : StateM Session Unit :=
  modify fun t => { t with errors := t.errors ++ s }

def note (events : List Event) : StateM Session Unit := do
  let t ← get
  complain (t.logger.written t.coloring errorStream (events.filterMap Event.record?))

def setUpLogger (level : Level) : StateM Session Unit :=
  modify fun t => { t with logger := t.logger.setLevel level errorStream }

def setColoring (coloring : Coloring) : StateM Session Unit :=
  modify fun t => { t with coloring }

end Session

open Session

def Stop.perform (console : Coloring) : Stop → StateM Session Ending
  | .failure f => do
    complain (Console.failed console f.message)
    return .exit f.exitCode
  | .crash c => return .crash c

/-- Prints the text of a report, if it has one, and ends the run as the report has it. -/
def Session.printReport (console : Coloring) (r : Report) (half : Bool) :
    Except Text.Numeral.Error Text → StateM Session Ending
  | .error e => return .crash (.numeral e)
  | .ok text =>
    if half ∧ text ≠ [] then return .crash .halfInOutput
    else do
      print (Console.printed console text false)
      return .exit (exitCodeOf r)

def Settings.perform (s : Settings) (console : Coloring) (files : List FileFindings)
    (half : Bool) : StateM Session Ending := do
  note [.formatting files.length s.source]
  if files = [] then return .exit .success
  else do
    let coloring := (← get).coloring
    let report := Run.report coloring s.policy files
    note (Run.renderEvents coloring s.policy files)
    printReport console report half (report.render (← get).coloring)

def Invocation.perform (w : Invocation) : StateM Session Ending :=
  match Request.ofArguments w.arguments with
  | .error e => do
    complain ((if e.recallsUsage then Help.reminder w.program else [])
      ++ Console.failed .off e.message)
    return .exit .arguments
  | .ok .help => do
    print (Help.page w.program)
    return .exit .success
  | .ok .version => do
    print Help.version
    return .exit .success
  | .ok (.report s) =>
    match w.level s with
    | .error stop => stop.perform .off
    | .ok level => do
      setUpLogger level
      let console := s.coloring w.environment w.isTerminal
      setColoring console
      match w.results s.source with
      | .error stop => stop.perform console
      | .ok text =>
        match readFiles text with
        | .error stop => stop.perform console
        | .ok (files, events) => do
          note events
          s.perform console files (Reading.showsHalf text)

/-- How a run ends in a process, and what it leaves: the process and what it has written. -/
def Invocation.performIn (w : Invocation) (p : Process) : Ending × Session :=
  (w.perform.run { toProcess := p }).run

/-- What a process does. Other calls read the colours and log through the logger, and leave both. -/
inductive Operation where
  | run (w : Invocation)
  | setColoring (coloring : Coloring)
  | setUpLogging (given : Option Level) (environment : Option Text) (stream : Nat)
  | call

def Process.step (p : Process) : Operation → Process
  | .run w => (w.performIn p).2.toProcess
  | .setColoring coloring => { p with coloring }
  | .setUpLogging given environment stream =>
    match p.logger.setUp given environment stream with
    | .ok logger => { p with logger }
    | .error _ => p
  | .call => p

def Process.after (p : Process) (history : List Operation) : Process := history.foldl step p

/-! ## Runs -/

def Session.outcome (r : Ending × Session) : Outcome where
  ending := r.1
  output := r.2.output
  errors := r.2.errors
  coloring := r.2.coloring

theorem written_append (coloring : Coloring) (logger : Logger) (rs ss : List Log.Record) :
    logger.written coloring errorStream (rs ++ ss) =
      logger.written coloring errorStream rs ++ logger.written coloring errorStream ss := by
  simp [Logger.written]

/-- A report is made in the colours that are on, and its log goes through the logger. -/
theorem outcome_report (s : Settings) (coloring : Coloring) (logger : Logger) (level : Level)
    (files : List FileFindings) (events : List Event) (half : Bool) :
    Session.outcome ((note events *> s.perform coloring files half).run
        { coloring, logger := logger.setLevel level errorStream }) =
      reportOn s coloring level files events half := by
  have log (es fs : List Event) : logged coloring level (es ++ fs) =
      logged coloring level es ++ logged coloring level fs := by
    rw [logged, List.filterMap_append, written_append]
    rfl
  unfold reportOn
  by_cases none : files = []
  · subst none
    simp only [if_true, log]
    rfl
  · let session : Session :=
      { coloring, logger := logger.setLevel level errorStream
        errors := logged coloring level events
          ++ logged coloring level [.formatting files.length s.source]
          ++ logged coloring level (Run.renderEvents coloring s.policy files) }
    let report := Run.report coloring s.policy files
    have noted : Session.outcome ((note events *> s.perform coloring files half).run
        { coloring, logger := logger.setLevel level errorStream }) =
        Session.outcome ((printReport coloring report half (report.render coloring)).run
          session) := by
      unfold Settings.perform
      simp only [if_neg none]
      rfl
    rw [noted]
    simp only [if_neg none, log]
    cases report.render coloring with
    | error e => rfl
    | ok text =>
      simp only [printReport]
      split <;> rfl

/-- In any process a run writes and ends as it does by itself. -/
theorem outcome_performIn (w : Invocation) (p : Process) :
    Session.outcome (w.performIn p) = w.run p.coloring := by
  unfold Invocation.performIn Invocation.perform Invocation.run
  cases asked : Request.ofArguments w.arguments with
  | error e => rfl
  | ok r =>
    cases r with
    | help =>
      -- Computing the page to compare it would take long.
      exact congrArg (Outcome.mk (.exit .success) · [] p.coloring)
        (List.nil_append (Help.page w.program))
    | version => rfl
    | report s =>
      cases settled : w.level s with
      | error stop =>
        simp only [settled]
        cases stop <;> rfl
      | ok level =>
        simp only [settled, Invocation.report]
        cases results : w.results s.source with
        | error stop => cases stop <;> rfl
        | ok text =>
          cases read : readFiles text with
          | error stop =>
            simp only [read]
            cases stop <;> rfl
          | ok r =>
            obtain ⟨files, events⟩ := r
            simp only [read]
            exact outcome_report s _ p.logger level files events _

end LintReport.Command
