/-
  LintReport.Proofs.Command.Status — what the exit status of a run says.

  Status 1 is to say that the report holds an error, and each failure has a status of its own. But a
  run that breaks off ends with status 1 as well. The rules here tell by the input alone when a run
  fails, and with which code, and when it breaks off: on a log level that only looks like a number,
  on a standard input that is no UTF-8 (a file of the same bytes fails with a code), on a path
  with a null character, on an integer too long to be read, on counts too long to be written, and on
  half of a surrogate pair in the report.

  Proved:
  - `output_of_reads`: a run prints what is rendered for the files it has read, unless half of a
    surrogate pair is shown.
  - `unread_of_results` / `readFiles_eq_error_iff`: what keeps results from being read.
  - `ending_of_fails` / `run_breaks` / `run_cases`: each run ends by one of these rules or as its
    report has it.
  - `status_eq_one_iff`: status 1 says that the report holds an error or that the run has broken
    off; a run breaks off, or ends with another code, exactly by the rules.
  - `status_one_without_error`: one octet that is no UTF-8 is enough to break off.
-/

import LintReport.Command.Run
import LintReport.Proofs.Report.Limits

namespace LintReport

open Terminal (Coloring)
open Log (Event Level)

namespace Command

/-! ## How runs are to end -/

/-- The arguments ask for a report with these settings, and the level of the log is settled. -/
structure Invocation.Starts (w : Invocation) (s : Settings) : Prop where
  asked : Request.ofArguments w.arguments = .ok (.report s)
  settled : ∃ level, w.level s = .ok level

structure Invocation.Reads (w : Invocation) (s : Settings) (files : List FileFindings) : Prop
    extends w.Starts s where
  read : ∃ text events, w.results s.source = .ok text ∧
    FileFindings.read text = .ok (files, events)

/-- There is half of a surrogate pair in what the results show. -/
def Invocation.showsHalf (w : Invocation) (s : Settings) : Bool :=
  match w.results s.source with
  | .ok text => Reading.showsHalf text
  | .error _ => false

def Invocation.ReportsErrors (w : Invocation) : Prop :=
  ∃ s files, w.Reads s files ∧ 0 < (Run.report .off s.policy files).counts.errors

/-- The invocation or its input is not understood, which has a code. -/
inductive Invocation.Fails (w : Invocation) : ExitCode → Prop
  | arguments {e : ArgumentError} (refused : Request.ofArguments w.arguments = .error e) :
      w.Fails .arguments
  | verbosity {s : Settings} (asked : Request.ofArguments w.arguments = .ok (.report s))
      (unset : Level.ofEnvironment w.environment.logLevel = .ok none)
      (louder : 0 < s.verbose) (quieter : 0 < s.quiet) : w.Fails .usageError
  | notUtf8 {s : Settings} {content : List UInt8} {e : Text.Utf8.Error} (starts : w.Starts s)
      (file : s.source ≠ ['-']) (opened : w.openFile (Path.ofText s.source) = .bytes content)
      (invalid : Text.Utf8.decode content = .error e) : w.Fails .dataError
  | malformed {s : Settings} {text : Text} {cause : Json.Cause} {position : Nat}
      (starts : w.Starts s) (results : w.results s.source = .ok text)
      (invalid : FileFindings.read text = .error (.malformed cause position)) : w.Fails .dataError
  | missing {s : Settings} (starts : w.Starts s) (file : s.source ≠ ['-'])
      (opened : w.openFile (Path.ofText s.source) = .missing) : w.Fails .fileNotFound
  | unreadable {s : Settings} {e : OpenError} (starts : w.Starts s) (file : s.source ≠ ['-'])
      (opened : w.openFile (Path.ofText s.source) = .refused e) : w.Fails .ioError

inductive Invocation.Breaks (w : Invocation) : Prop
  | logLevel {s : Settings} (asked : Request.ofArguments w.arguments = .ok (.report s))
      (value : Level.Unreadable w.environment.logLevel)
  | inputNotUtf8 {s : Settings} {e : Text.Utf8.Error} (starts : w.Starts s)
      (input : s.source = ['-']) (invalid : Text.Utf8.decode w.input = .error e)
  | nullInPath {s : Settings} (starts : w.Starts s) (file : s.source ≠ ['-'])
      (opened : w.openFile (Path.ofText s.source) = .nullInPath)
  | longInteger {s : Settings} {text : Text} (starts : w.Starts s)
      (results : w.results s.source = .ok text) (more : Text.trim text ≠ [])
      (long : Json.HasLongInteger text)
  | longCounts {s : Settings} {files : List FileFindings} (reads : w.Reads s files)
      (problems : 0 < (Run.report .off s.policy files).total)
      (long : ¬ (Run.report .off s.policy files).counts.Writable)
  | halfInOutput {s : Settings} {files : List FileFindings} (reads : w.Reads s files)
      (problems : 0 < (Run.report .off s.policy files).total) (half : w.showsHalf s)

theorem Invocation.Fails.ne {w : Invocation} {code : ExitCode} (h : w.Fails code) :
    code ≠ .success ∧ code ≠ .lintErrors := by
  cases h <;> decide

/-! ## How they end -/

def Stop.ending : Stop → Ending
  | .failure f => .exit f.exitCode
  | .crash c => .crash c

@[simp] theorem Stop.ending_outcome (stop : Stop) (coloring : Coloring) (s : Text) :
    (stop.outcome coloring s).ending = stop.ending := by
  cases stop <;> rfl

def endingOn (policy : Policy) (files : List FileFindings) (half : Bool) : Ending :=
  let report := Run.report .off policy files
  if 0 < report.total ∧ ¬ report.counts.Writable then .crash (.numeral .tooLongToWrite)
  else if 0 < report.total ∧ half then .crash .halfInOutput
  else .exit (exitCodeOf report)

theorem endingOn_of_render {coloring : Coloring} {policy : Policy} {files : List FileFindings}
    {text : Text} (rendered : (Run.report coloring policy files).render coloring = .ok text)
    (half : Bool) :
    endingOn policy files half =
      if half ∧ text ≠ [] then .crash .halfInOutput
      else .exit (exitCodeOf (Run.report coloring policy files)) := by
  have counts := counts_report_coloring coloring .off policy files
  have total : (Run.report coloring policy files).total = (Run.report .off policy files).total := by
    rw [Report.total, Report.total, counts]
  have shown := Report.render_ne_nil_iff rendered
  have short : ¬ (0 < (Run.report coloring policy files).total ∧
      ¬ (Run.report coloring policy files).counts.Writable) := by
    intro long
    cases rendered.symm.trans
      ((Report.render_eq_error_iff coloring _ .tooLongToWrite).mpr ⟨long, rfl⟩)
  rw [total] at shown
  rw [total, counts] at short
  unfold endingOn exitCodeOf
  simp only [if_neg short, counts]
  exact if_congr (and_comm.trans (and_congr_right' shown.symm)) rfl rfl

theorem ending_reportOn (s : Settings) (coloring : Coloring) (level : Level)
    (files : List FileFindings) (events : List Event) (half : Bool) :
    (reportOn s coloring level files events half).ending = endingOn s.policy files half := by
  unfold reportOn
  by_cases none : files = []
  · subst none
    cases s.policy <;> rfl
  · simp only [if_neg none]
    cases rendered : (Run.report coloring s.policy files).render coloring with
    | error e =>
      obtain ⟨long, rfl⟩ := (Report.render_eq_error_iff coloring _ e).mp rendered
      rw [Report.total, counts_report_coloring coloring .off] at long
      exact (if_pos long).symm
    | ok text =>
      refine Eq.trans ?_ (endingOn_of_render rendered half).symm
      simp only
      split <;> rfl

/-- A run whose level is settled goes on to its report, in the colours it chooses. -/
theorem run_of_starts {w : Invocation} {s : Settings} (h : w.Starts s) (c : Coloring) :
    ∃ level, w.run c = w.report s (s.coloring w.environment w.isTerminal) level := by
  obtain ⟨level, settled⟩ := h.settled
  refine ⟨level, ?_⟩
  unfold Invocation.run
  rw [h.asked]
  simp only [settled]

theorem ending_of_results {w : Invocation} {s : Settings} {stop : Stop} (h : w.Starts s)
    (stopped : w.results s.source = .error stop) (c : Coloring) :
    (w.run c).ending = stop.ending := by
  obtain ⟨level, run⟩ := run_of_starts h c
  rw [run, Invocation.report, stopped]
  exact Stop.ending_outcome stop _ []

theorem ending_of_readFiles {w : Invocation} {s : Settings} {text : Text} {stop : Stop}
    (h : w.Starts s) (results : w.results s.source = .ok text)
    (stopped : readFiles text = .error stop) (c : Coloring) : (w.run c).ending = stop.ending := by
  obtain ⟨level, run⟩ := run_of_starts h c
  rw [run, Invocation.report, results]
  simp only [stopped]
  exact Stop.ending_outcome stop _ []

theorem ending_of_reads {w : Invocation} {s : Settings} {files : List FileFindings}
    (h : w.Reads s files) (c : Coloring) :
    (w.run c).ending = endingOn s.policy files (w.showsHalf s) := by
  obtain ⟨level, run⟩ := run_of_starts h.toStarts c
  obtain ⟨text, events, results, read⟩ := h.read
  rw [run, Invocation.report, Invocation.showsHalf, results]
  simp only [readFiles, read]
  exact ending_reportOn s _ level files events _

/-- A report prints what is rendered, as far as its colours show it; nothing of it, with half of a
surrogate pair to show. -/
theorem output_reportOn (s : Settings) (coloring : Coloring) (level : Level)
    {files : List FileFindings} (short : ShortPlaces files) (events : List Event) (half : Bool) :
    (reportOn s coloring level files events half).output =
      match Run.render coloring s.policy files with
      | .ok text => if half then [] else Console.shown coloring text
      | .error _ => [] := by
  rw [Run.render_eq, if_pos short]
  unfold reportOn
  by_cases none : files = []
  · subst none
    have nothing : (Run.report coloring s.policy []).render coloring = .ok [] :=
      Report.render_of_total_le (by cases s.policy <;> exact Int.le_refl 0) coloring
    simp only [if_pos, nothing]
    cases coloring <;> cases half <;> rfl
  · simp only [if_neg none]
    cases (Run.report coloring s.policy files).render coloring with
    | error e => rfl
    | ok text =>
      cases half with
      | false => simp [Console.printed, Console.ending]
      | true =>
        by_cases empty : text = []
        · subst empty
          cases coloring <;> rfl
        · simp [empty, Stop.outcome]

/-- A run prints what is rendered for the files it has read, unless half of a surrogate pair is
shown. -/
theorem output_of_reads {w : Invocation} {s : Settings} {files : List FileFindings}
    {coloring : Coloring} (h : w.Reads s files)
    (chosen : s.coloring w.environment w.isTerminal = coloring) (c : Coloring) :
    (w.run c).output =
      match Run.render coloring s.policy files with
      | .ok text => if w.showsHalf s then [] else Console.shown coloring text
      | .error _ => [] := by
  obtain ⟨level, run⟩ := run_of_starts h.toStarts c
  obtain ⟨results, events, found, read⟩ := h.read
  have short := shortPlaces_of_writable (writable_of_read read)
  rw [run, chosen, Invocation.report, Invocation.showsHalf, found]
  simp only [readFiles, read, output_reportOn s coloring level short]

theorem level_eq_error_iff {w : Invocation} {s : Settings} {stop : Stop} :
    w.level s = .error stop ↔
      (∃ e, Level.ofEnvironment w.environment.logLevel = .error e ∧ stop = .crash (.numeral e)) ∨
      (Level.ofEnvironment w.environment.logLevel = .ok none ∧ 0 < s.verbose ∧ 0 < s.quiet ∧
        stop = .failure .verbosityConflict) := by
  unfold Invocation.level
  cases Level.ofEnvironment w.environment.logLevel with
  | error e => simp [eq_comm]
  | ok asked =>
    cases asked with
    | some level => simp [Settings.level]
    | none =>
      by_cases conflict : 0 < s.verbose ∧ 0 < s.quiet
      · have fails : s.level none = .error .verbosityConflict := by
          simp [Settings.level, verbosityLevel, conflict]
        simp [fails, conflict, eq_comm]
      · have settles : ∃ level, s.level none = .ok level := by
          simp only [Settings.level, verbosityLevel]
          rw [if_neg (by omega)]
          (repeat' split) <;> exact ⟨_, rfl⟩
        obtain ⟨level, settled⟩ := settles
        simp only [settled, reduceCtorEq, false_and, exists_false, false_or, false_iff]
        intro h
        obtain ⟨-, louder, quieter, -⟩ := h
        exact conflict ⟨louder, quieter⟩

theorem ending_of_level {w : Invocation} {s : Settings} {stop : Stop}
    (asked : Request.ofArguments w.arguments = .ok (.report s)) (stopped : w.level s = .error stop)
    (c : Coloring) : (w.run c).ending = stop.ending := by
  unfold Invocation.run
  rw [asked]
  simp only [stopped]
  exact Stop.ending_outcome stop .off []

def readOpened (path : Text) : Opened → Except Stop Text
  | .bytes content =>
    match Text.Utf8.decode content with
    | .ok s => .ok (Text.Newline.normalize s)
    | .error _ => .error (.failure (.notUtf8 path))
  | .missing => .error (.failure (.notFound path))
  | .refused e => .error (.failure (.unreadable path e))
  | .nullInPath => .error (.crash .nullInPath)

theorem results_file {w : Invocation} {source : Text} (file : source ≠ ['-']) {opened : Opened}
    (h : w.openFile (Path.ofText source) = opened) :
    w.results source = readOpened (Path.ofText source).write opened := by
  rw [Invocation.results, if_neg file, ← h]
  rfl

/-! ## Each rule -/

theorem ending_of_fails {w : Invocation} {code : ExitCode} (h : w.Fails code) (c : Coloring) :
    (w.run c).ending = .exit code := by
  cases h with
  | arguments refused =>
    unfold Invocation.run
    rw [refused]
  | verbosity asked unset louder quieter =>
    have stopped := level_eq_error_iff.mpr (.inr ⟨unset, louder, quieter, rfl⟩)
    exact ending_of_level asked stopped c
  | notUtf8 starts file opened invalid =>
    have stopped := results_file file opened
    simp only [readOpened, invalid] at stopped
    exact ending_of_results starts stopped c
  | malformed starts results invalid =>
    rename_i s text cause position
    have stopped : readFiles text = .error
        (.failure (.malformedResults (Reading.complaint text (.malformed cause position)))) := by
      simp only [readFiles, invalid]
    exact ending_of_readFiles starts results stopped c
  | missing starts file opened => exact ending_of_results starts (results_file file opened) c
  | unreadable starts file opened => exact ending_of_results starts (results_file file opened) c

theorem run_breaks {w : Invocation} (h : w.Breaks) (c : Coloring) :
    ∃ cause, (w.run c).ending = .crash cause := by
  cases h with
  | logLevel asked value =>
    obtain ⟨e, read⟩ := Level.exists_ofEnvironment_eq_error_iff.mpr value
    exact ⟨_, ending_of_level asked (level_eq_error_iff.mpr (.inl ⟨e, read, rfl⟩)) c⟩
  | inputNotUtf8 starts input invalid =>
    rename_i s e
    have stopped : w.results s.source = .error (.crash (.utf8 e)) := by
      rw [Invocation.results, if_pos input]
      simp only [invalid]
    exact ⟨_, ending_of_results starts stopped c⟩
  | nullInPath starts file opened =>
    exact ⟨_, ending_of_results starts (results_file file opened) c⟩
  | longInteger starts results more long =>
    rename_i s text
    obtain ⟨e, read⟩ := exists_read_eq_numeral_iff.mpr ⟨more, long⟩
    have stopped : readFiles text = .error (.crash (.numeral e)) := by simp only [readFiles, read]
    exact ⟨_, ending_of_readFiles starts results stopped c⟩
  | longCounts reads problems long =>
    exact ⟨_, (ending_of_reads reads c).trans (if_pos ⟨problems, long⟩)⟩
  | halfInOutput reads problems half =>
    rename_i s files
    rw [ending_of_reads reads c, endingOn]
    by_cases long : ¬ (Run.report .off s.policy files).counts.Writable
    · exact ⟨_, if_pos ⟨problems, long⟩⟩
    · refine ⟨.halfInOutput, ?_⟩
      simp only [long, and_false, if_false, problems, half, and_self, if_true]

/-- What keeps the text of the results from being read, and how it stops the run. -/
inductive Invocation.Unread (w : Invocation) (source : Text) : Stop → Prop
  | inputNotUtf8 {e : Text.Utf8.Error} (input : source = ['-'])
      (invalid : Text.Utf8.decode w.input = .error e) : w.Unread source (.crash (.utf8 e))
  | notUtf8 {content : List UInt8} {e : Text.Utf8.Error} (file : source ≠ ['-'])
      (opened : w.openFile (Path.ofText source) = .bytes content)
      (invalid : Text.Utf8.decode content = .error e) :
      w.Unread source (.failure (.notUtf8 (Path.ofText source).write))
  | missing (file : source ≠ ['-']) (opened : w.openFile (Path.ofText source) = .missing) :
      w.Unread source (.failure (.notFound (Path.ofText source).write))
  | refused {e : OpenError} (file : source ≠ ['-'])
      (opened : w.openFile (Path.ofText source) = .refused e) :
      w.Unread source (.failure (.unreadable (Path.ofText source).write e))
  | nullInPath (file : source ≠ ['-'])
      (opened : w.openFile (Path.ofText source) = .nullInPath) :
      w.Unread source (.crash .nullInPath)

theorem unread_of_results {w : Invocation} {source : Text} {stop : Stop}
    (stopped : w.results source = .error stop) : w.Unread source stop := by
  by_cases input : source = ['-']
  · rw [Invocation.results, if_pos input] at stopped
    cases decoded : Text.Utf8.decode w.input with
    | ok text => simp only [decoded, reduceCtorEq] at stopped
    | error e =>
      simp only [decoded, Except.error.injEq] at stopped
      subst stopped
      exact .inputNotUtf8 input decoded
  · cases opened : w.openFile (Path.ofText source) with
    | bytes content =>
      rw [results_file input opened] at stopped
      cases decoded : Text.Utf8.decode content with
      | ok text => simp only [readOpened, decoded, reduceCtorEq] at stopped
      | error e =>
        simp only [readOpened, decoded, Except.error.injEq] at stopped
        subst stopped
        exact .notUtf8 input opened decoded
    | missing =>
      cases (results_file input opened).symm.trans stopped
      exact .missing input opened
    | refused e =>
      cases (results_file input opened).symm.trans stopped
      exact .refused input opened
    | nullInPath =>
      cases (results_file input opened).symm.trans stopped
      exact .nullInPath input opened

/-- What stops the reading of results is a failure with a code or breaks the run off. -/
theorem fails_or_breaks_of_results {w : Invocation} {s : Settings} {stop : Stop} (h : w.Starts s)
    (stopped : w.results s.source = .error stop) :
    (∃ code, w.Fails code ∧ stop.ending = .exit code) ∨
      (w.Breaks ∧ ∃ cause, stop.ending = .crash cause) := by
  cases unread_of_results stopped with
  | inputNotUtf8 input invalid => exact .inr ⟨.inputNotUtf8 h input invalid, _, rfl⟩
  | notUtf8 file opened invalid => exact .inl ⟨_, .notUtf8 h file opened invalid, rfl⟩
  | missing file opened => exact .inl ⟨_, .missing h file opened, rfl⟩
  | refused file opened => exact .inl ⟨_, .unreadable h file opened, rfl⟩
  | nullInPath file opened => exact .inr ⟨.nullInPath h file opened, _, rfl⟩

theorem readFiles_eq_ok_iff {text : Text} {r : List FileFindings × List Event} :
    readFiles text = .ok r ↔ FileFindings.read text = .ok r := by
  unfold readFiles
  cases FileFindings.read text with
  | ok _ => simp only [Except.ok.injEq]
  | error fault => cases fault <;> simp

theorem readFiles_eq_error_iff {text : Text} {stop : Stop} :
    readFiles text = .error stop ↔
      (∃ cause position, FileFindings.read text = .error (.malformed cause position) ∧
        stop = .failure (.malformedResults
          (Reading.complaint text (.malformed cause position)))) ∨
      ∃ e, FileFindings.read text = .error (.numeral e) ∧ stop = .crash (.numeral e) := by
  unfold readFiles
  cases FileFindings.read text with
  | ok r => simp
  | error fault =>
    cases fault with
    | malformed cause position =>
      refine ⟨fun h => .inl ⟨cause, position, rfl, (Except.error.inj h).symm⟩, fun h => ?_⟩
      rcases h with ⟨cause', position', read, rfl⟩ | ⟨e, read, -⟩
      · cases read
        rfl
      · cases read
    | numeral e => simp [eq_comm]

theorem fails_or_breaks_of_readFiles {w : Invocation} {s : Settings} {text : Text} {stop : Stop}
    (h : w.Starts s) (results : w.results s.source = .ok text)
    (stopped : readFiles text = .error stop) :
    (∃ code, w.Fails code ∧ stop.ending = .exit code) ∨
      (w.Breaks ∧ ∃ cause, stop.ending = .crash cause) := by
  rcases readFiles_eq_error_iff.mp stopped with ⟨cause, position, read, rfl⟩ | ⟨e, read, rfl⟩
  · exact .inl ⟨_, .malformed h results read, rfl⟩
  · obtain ⟨more, long⟩ := exists_read_eq_numeral_iff.mp ⟨e, read⟩
    exact .inr ⟨.longInteger h results more long, _, rfl⟩

theorem fails_or_breaks_of_level {w : Invocation} {s : Settings} {stop : Stop}
    (asked : Request.ofArguments w.arguments = .ok (.report s))
    (stopped : w.level s = .error stop) :
    (∃ code, w.Fails code ∧ stop.ending = .exit code) ∨
      (w.Breaks ∧ ∃ cause, stop.ending = .crash cause) := by
  rcases level_eq_error_iff.mp stopped with ⟨e, read, rfl⟩ | ⟨unset, louder, quieter, rfl⟩
  · have value := Level.exists_ofEnvironment_eq_error_iff.mp ⟨e, read⟩
    exact .inr ⟨.logLevel asked value, _, rfl⟩
  · exact .inl ⟨_, .verbosity asked unset louder quieter, rfl⟩

/-- The arguments of a run that starts leave no choice of the settings, and its input none of the
files. -/
theorem Invocation.Reads.unique {w : Invocation} {s t : Settings} {files others : List FileFindings}
    (h : w.Reads s files) (h' : w.Reads t others) : s = t ∧ files = others := by
  have settings := h.asked.symm.trans h'.asked
  cases settings
  obtain ⟨text, events, results, read⟩ := h.read
  obtain ⟨text', events', results', read'⟩ := h'.read
  cases results.symm.trans results'
  cases read.symm.trans read'
  exact ⟨rfl, rfl⟩

theorem reportsErrors_iff_of_reads {w : Invocation} {s : Settings} {files : List FileFindings}
    (h : w.Reads s files) :
    w.ReportsErrors ↔ 0 < (Run.report .off s.policy files).counts.errors := by
  constructor
  · intro found
    obtain ⟨t, others, reads, errors⟩ := found
    obtain ⟨rfl, rfl⟩ := h.unique reads
    exact errors
  · exact fun errors => ⟨s, files, h, errors⟩

/-- How a run ends: with a code of its own, broken off, or as its report or a help text has it. -/
theorem run_cases (w : Invocation) (c : Coloring) :
    (∃ code, w.Fails code ∧ (w.run c).ending = .exit code) ∨
      (w.Breaks ∧ ∃ cause, (w.run c).ending = .crash cause) ∨
      (¬ w.ReportsErrors ∧ (w.run c).ending = .exit .success) ∨
      (w.ReportsErrors ∧ (w.run c).ending = .exit .lintErrors) := by
  have helps {r : Request} (asked : Request.ofArguments w.arguments = .ok r)
      (other : ∀ s, r ≠ .report s) : ¬ w.ReportsErrors := by
    intro h
    obtain ⟨s, files, reads, -⟩ := h
    cases asked.symm.trans reads.asked
    exact other s rfl
  cases asked : Request.ofArguments w.arguments with
  | error e =>
    exact .inl ⟨_, .arguments asked, ending_of_fails (.arguments asked) c⟩
  | ok r =>
    cases r with
    | help =>
      refine .inr (.inr (.inl ⟨helps asked nofun, ?_⟩))
      unfold Invocation.run
      rw [asked]
    | version =>
      refine .inr (.inr (.inl ⟨helps asked nofun, ?_⟩))
      unfold Invocation.run
      rw [asked]
    | report s =>
      cases settled : w.level s with
      | error stop =>
        rw [ending_of_level asked settled c]
        exact (fails_or_breaks_of_level asked settled).imp_right .inl
      | ok level =>
        have starts : w.Starts s := ⟨asked, level, settled⟩
        cases results : w.results s.source with
        | error stop =>
          rw [ending_of_results starts results c]
          exact (fails_or_breaks_of_results starts results).imp_right .inl
        | ok text =>
          cases read : readFiles text with
          | error stop =>
            rw [ending_of_readFiles starts results read c]
            exact (fails_or_breaks_of_readFiles starts results read).imp_right .inl
          | ok r =>
            obtain ⟨files, events⟩ := r
            have loaded := readFiles_eq_ok_iff.mp read
            have reads : w.Reads s files := ⟨starts, text, events, results, loaded⟩
            rw [ending_of_reads reads c, endingOn, reportsErrors_iff_of_reads reads]
            by_cases long : 0 < (Run.report .off s.policy files).total ∧
                ¬ (Run.report .off s.policy files).counts.Writable
            · exact .inr (.inl ⟨.longCounts reads long.1 long.2, _, if_pos long⟩)
            · by_cases half : 0 < (Run.report .off s.policy files).total ∧ w.showsHalf s
              · refine .inr (.inl ⟨.halfInOutput reads half.1 half.2, .halfInOutput, ?_⟩)
                simp only [if_neg long, if_pos half]
              · simp only [if_neg long, if_neg half, exitCodeOf]
                by_cases errors : 0 < (Run.report .off s.policy files).counts.errors
                · exact .inr (.inr (.inr ⟨errors, by rw [if_pos errors]⟩))
                · exact .inr (.inr (.inl ⟨errors, by rw [if_neg errors]⟩))

/-- A run whose report holds an error ends with the code that says so, or breaks off. -/
theorem ending_of_reportsErrors {w : Invocation} (h : w.ReportsErrors) (c : Coloring) :
    (w.run c).ending.status = 1 := by
  obtain ⟨s, files, reads, errors⟩ := h
  rw [ending_of_reads reads c, endingOn, exitCodeOf, if_pos errors]
  split
  · rfl
  · split <;> rfl

/-! ## The status -/

/-- Status 1 says that the report holds an error, or that the run has broken off. A run breaks off,
and ends with a code that is no result of a report, exactly by the rules. -/
theorem status_eq_one_iff (w : Invocation) (c : Coloring) :
    ((w.run c).ending.status = 1 ↔ w.ReportsErrors ∨ w.Breaks) ∧
      ((∃ cause, (w.run c).ending = .crash cause) ↔ w.Breaks) ∧
      ∀ code, (code ≠ .success ∧ code ≠ .lintErrors ∧ (w.run c).ending = .exit code) ↔
        w.Fails code := by
  have broken (h : w.Breaks) : (w.run c).ending.status = 1 := by
    obtain ⟨cause, ending⟩ := run_breaks h c
    rw [ending]
    rfl
  have cases := run_cases w c
  refine ⟨⟨fun one => ?_, fun h => h.elim (ending_of_reportsErrors · c) broken⟩,
    ⟨?_, fun h => run_breaks h c⟩,
    fun code => ⟨?_, fun h => ⟨h.ne.1, h.ne.2, ending_of_fails h c⟩⟩⟩
  · rcases cases with ⟨code, fails, ends⟩ | ⟨breaks, -⟩ | ⟨-, ends⟩ | ⟨errors, -⟩
    · rw [ends] at one
      cases fails <;> cases one
    · exact .inr breaks
    · rw [ends] at one
      cases one
    · exact .inl errors
  · intro h
    obtain ⟨cause, crash⟩ := h
    rcases cases with ⟨code, -, ends⟩ | ⟨breaks, -⟩ | ⟨-, ends⟩ | ⟨-, ends⟩
    · cases crash.symm.trans ends
    · exact breaks
    · cases crash.symm.trans ends
    · cases crash.symm.trans ends
  · intro h
    obtain ⟨success, lintErrors, ends⟩ := h
    rcases cases with ⟨code', fails, ends'⟩ | ⟨-, cause, ends'⟩ | ⟨-, ends'⟩ | ⟨-, ends'⟩
    · cases ends.symm.trans ends'
      exact fails
    · cases ends.symm.trans ends'
    · cases ends.symm.trans ends'
      exact absurd rfl success
    · cases ends.symm.trans ends'
      exact absurd rfl lintErrors

/-- One octet that is no UTF-8 breaks a run off, with the status of a report that holds an error. -/
theorem status_one_without_error :
    let w : Invocation :=
      { program := "lintdiffline".toList, arguments := [], environment := {}, isTerminal := false
        input := [0xff], openFile := fun _ => .missing }
    (w.run .off).ending.status = 1 ∧ ¬ w.ReportsErrors := by
  intro w
  refine ⟨rfl, ?_⟩
  intro h
  obtain ⟨s, files, reads, -⟩ := h
  obtain ⟨text, events, results, -⟩ := reads.read
  cases reads.asked
  cases results

end Command

end LintReport
