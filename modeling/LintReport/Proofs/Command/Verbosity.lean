/-
  LintReport.Proofs.Command.Verbosity — what a run writes apart from its log does not depend on how
  much it logs.

  Two runs that are asked for different levels, by the environment or by options for a louder or a
  quieter log, read their arguments alike in all else. So they have the same settings but for the
  numbers of those options, and these numbers are looked at for the level only. The level says what
  is logged on the error stream, and nothing else.

  Proved:
  - `request_silent`: without those options the arguments ask for the same but for their numbers.
  - `exists_level`: a run that is asked for a readable level, louder or quieter only, has one.
  - `sameButLog_cons`: one more option for the log before the other arguments is no other
    difference.
  - `run_printsSame`: two runs that differ in the level of the log only print the same and end
    alike.
-/

import LintReport.Proofs.Command.Requests
import LintReport.Proofs.Command.Status

namespace LintReport.Command

open Terminal (Coloring)
open Log (Event Level)

/-! ## Arguments without options for the log -/

def Flag.isVerbosity : Flag → Bool
  | verbose | quiet => true
  | _ => false

namespace Parsed

def silent (p : Parsed) : Parsed := { p with given := p.given.filter (!·.flag.isVerbosity) }

variable {p : Parsed} {flag : Flag}

theorem find?_filter_of_imp {α : Type} {keep sought : α → Bool} {xs : List α}
    (h : ∀ x, sought x = true → keep x = true) :
    (xs.filter keep).find? sought = xs.find? sought := by
  rw [List.find?_filter]
  congr 1
  funext x
  cases hx : sought x with
  | false => simp
  | true => simp [h x hx]

theorem first?_silent {kind : Flag → Bool} (h : ∀ f, kind f = true → f.isVerbosity = false) :
    p.silent.first? kind = p.first? kind := by
  unfold first? silent
  rw [List.find?_map, List.find?_map, find?_filter_of_imp]
  intro g hg
  simpa using h g.flag hg

theorem value?_silent (h : flag.isVerbosity = false) : p.silent.value? flag = p.value? flag := by
  unfold value? silent
  rw [← List.filter_reverse, find?_filter_of_imp]
  intro g hg
  have same : g.flag = flag := by simpa using hg
  simp [same, h]

theorem count_silent (h : flag.isVerbosity = false) : p.silent.count flag = p.count flag := by
  unfold count silent
  rw [List.countP_filter]
  congr 1
  funext g
  by_cases same : g.flag = flag
  · simp [same, h]
  · simp [same]

theorem count_silent_of_isVerbosity (h : flag.isVerbosity = true) : p.silent.count flag = 0 := by
  unfold count silent
  rw [List.countP_eq_zero]
  intro g hg same
  have other : g.flag.isVerbosity = false := by simpa using (List.mem_filter.mp hg).2
  have same : g.flag = flag := by simpa using same
  rw [same, h] at other
  cases other

theorem values_silent (p : Parsed) : p.silent.values = p.values := by
  have first : p.silent.first? Flag.takesValue = p.first? Flag.takesValue :=
    first?_silent fun f hf => by cases f <;> first | rfl | cases hf
  have color : p.silent.color? = p.color? := by
    unfold color?
    rw [value?_silent rfl]
  have policy : p.silent.policy = p.policy := by
    unfold Parsed.policy
    rw [value?_silent rfl]
  unfold values
  rw [first, color, policy]

end Parsed

def Settings.silent (s : Settings) : Settings := { s with verbose := 0, quiet := 0 }

/-- Settings that are the same without their options for the log differ in these alone. -/
theorem Settings.eq_of_silent {s s' : Settings} (h : s'.silent = s.silent) :
    s' = { s with verbose := s'.verbose, quiet := s'.quiet } := by
  cases s
  cases s'
  cases h
  rfl

def Request.silent : Request → Request
  | .report s => .report s.silent
  | r => r

/-- Without the options for the log the arguments ask for the same, but for their numbers. -/
theorem Parsed.request_silent (p : Parsed) : p.silent.request = p.request.map Request.silent := by
  have first : p.silent.first? Flag.isEager = p.first? Flag.isEager :=
    first?_silent fun f hf => by cases f <;> first | rfl | cases hf
  have verbose : p.silent.count .verbose = 0 := count_silent_of_isVerbosity rfl
  have quiet : p.silent.count .quiet = 0 := count_silent_of_isVerbosity rfl
  have noColor : p.silent.count .noColor = p.count .noColor := count_silent rfl
  have operands : p.silent.operands = p.operands := rfl
  unfold request
  rw [first, values_silent, operands, verbose, quiet, noColor]
  cases p.first? Flag.isEager with
  | some f => cases f <;> rfl
  | none =>
    cases p.values with
    | error e => rfl
    | ok v =>
      match p.operands with
      | [] | [_] | _ :: _ :: _ => rfl

/-! ## Runs -/

namespace Invocation

/-- The runs differ in nothing but the level that the environment and the options ask for: read as
options and operands, their arguments are the same without the options for the log. -/
structure SameButLog (w w' : Invocation) : Prop where
  program : w'.program = w.program
  arguments : (parse w'.arguments).map Parsed.silent = (parse w.arguments).map Parsed.silent
  environment : w'.environment = { w.environment with logLevel := w'.environment.logLevel }
  isTerminal : w'.isTerminal = w.isTerminal
  input : w'.input = w.input
  openFile : w'.openFile = w.openFile

/-- The environment asks for a level that can be read, or for none, and the options for a louder log
or for a quieter one, not for both. -/
structure AsksForLevel (w : Invocation) : Prop where
  readable : ∃ asked, Level.ofEnvironment w.environment.logLevel = .ok asked
  oneWay : ∀ p, parse w.arguments = .ok p → p.count .verbose = 0 ∨ p.count .quiet = 0

/-- A run that asks for a level has one. -/
theorem exists_level {w : Invocation} (h : w.AsksForLevel) {s : Settings}
    (asked : Request.ofArguments w.arguments = .ok (.report s)) :
    ∃ level, w.level s = .ok level := by
  cases settled : w.level s with
  | ok level => exact ⟨level, rfl⟩
  | error stop =>
    obtain ⟨p, parsed, request⟩ := ofArguments_eq_ok_iff.mp asked
    obtain ⟨-, -, color, policy, -, -, rfl⟩ := Parsed.request_eq_report_iff.mp request
    obtain ⟨level, readable⟩ := h.readable
    rcases level_eq_error_iff.mp settled with ⟨e, unreadable, -⟩ | ⟨-, louder, quieter, -⟩
    · cases readable.symm.trans unreadable
    · have louder : 0 < p.count .verbose := louder
      have quieter : 0 < p.count .quiet := quieter
      rcases h.oneWay p parsed with none | none
      · omega
      · omega

end Invocation

/-- Both outcomes have the same text on the standard output, and end alike. -/
def Outcome.PrintsSame (a b : Outcome) : Prop := b.output = a.output ∧ b.ending = a.ending

theorem reportOn_printsSame (s : Settings) (coloring : Coloring) (level level' : Level)
    (files : List FileFindings) (events : List Event) (half : Bool) :
    (reportOn s coloring level files events half).PrintsSame
      (reportOn s coloring level' files events half) := by
  unfold reportOn
  by_cases none : files = []
  · simp only [if_pos none]
    exact ⟨rfl, rfl⟩
  · simp only [if_neg none]
    cases (Run.report coloring s.policy files).render coloring with
    | error e => exact ⟨rfl, rfl⟩
    | ok text =>
      by_cases broken : half ∧ text ≠ []
      · simp only [if_pos broken]
        exact ⟨rfl, rfl⟩
      · simp only [if_neg broken]
        exact ⟨rfl, rfl⟩

theorem report_printsSame (w : Invocation) (s : Settings) (coloring : Coloring)
    (level level' : Level) :
    (w.report s coloring level).PrintsSame (w.report s coloring level') := by
  unfold Invocation.report
  cases w.results s.source with
  | error stop => exact ⟨rfl, rfl⟩
  | ok text =>
    cases read : readFiles text with
    | error stop =>
      simp only [read]
      exact ⟨rfl, rfl⟩
    | ok r =>
      simp only [read]
      exact reportOn_printsSame s coloring level level' r.1 r.2 _

/-- One more argument, with options for the log only, makes no other difference. -/
theorem sameButLog_cons (w : Invocation) {word : Text} {given : List Given}
    (read : wordOf word = .ok (.options given)) (only : ∀ g ∈ given, g.flag.isVerbosity = true) :
    w.SameButLog { w with arguments := word :: w.arguments } := by
  refine ⟨rfl, ?_, rfl, rfl, rfl, rfl⟩
  have silenced (p : Parsed) : (p.prepend given).silent = p.silent := by
    have gone : given.filter (!·.flag.isVerbosity) = [] :=
      List.filter_eq_nil_iff.mpr fun g hg => by simp [only g hg]
    simp only [Parsed.silent, Parsed.prepend, List.filter_append, gone, List.nil_append]
  simp only [parse, read]
  cases parse w.arguments with
  | error e => rfl
  | ok p => exact congrArg Except.ok (silenced p)

namespace Invocation.SameButLog

variable {w w' : Invocation}

theorem request (h : w.SameButLog w') :
    (Request.ofArguments w'.arguments).map Request.silent =
      (Request.ofArguments w.arguments).map Request.silent := by
  have read (args : List Text) : (Request.ofArguments args).map Request.silent =
      ((parse args).map Parsed.silent).bind Parsed.request := by
    unfold Request.ofArguments
    cases parse args with
    | error e => rfl
    | ok p => exact p.request_silent.symm
  rw [read, read, h.arguments]

theorem coloring (h : w.SameButLog w') {s s' : Settings} (settings : s'.silent = s.silent) :
    s'.coloring w'.environment w'.isTerminal = s.coloring w.environment w.isTerminal := by
  have choice : s'.choice = s.choice := by
    have noColor : s'.noColor = s.noColor :=
      show s'.silent.noColor = s.silent.noColor from congrArg Settings.noColor settings
    have color : s'.color = s.color :=
      show s'.silent.color = s.silent.color from congrArg Settings.color settings
    rw [Settings.choice, noColor, color]
    rfl
  unfold Settings.coloring
  rw [choice, h.environment, h.isTerminal]
  cases s.choice <;> rfl

/-- The report of a run depends on its options for the log through the level alone. -/
theorem report_eq (h : w.SameButLog w') {s s' : Settings} (settings : s'.silent = s.silent)
    (coloring : Coloring) (level : Level) :
    w'.report s' coloring level = w.report s coloring level := by
  have results (source : Text) : w'.results source = w.results source := by
    unfold Invocation.results
    rw [h.input, h.openFile]
  rw [Settings.eq_of_silent settings]
  unfold Invocation.report
  rw [results]
  rfl

/-- Two runs that differ in the level of the log only print the same and end alike. -/
theorem run_printsSame (h : w.SameButLog w') (asks : w.AsksForLevel) (asks' : w'.AsksForLevel)
    (c c' : Coloring) : (w.run c).PrintsSame (w'.run c') := by
  have same := h.request
  unfold Invocation.run
  cases asked : Request.ofArguments w.arguments with
  | error e =>
    cases asked' : Request.ofArguments w'.arguments with
    | error e' => exact ⟨rfl, rfl⟩
    | ok r' =>
      rw [asked, asked'] at same
      cases same
  | ok r =>
    cases asked' : Request.ofArguments w'.arguments with
    | error e' =>
      rw [asked, asked'] at same
      cases same
    | ok r' =>
      rw [asked, asked'] at same
      have same : r'.silent = r.silent := Except.ok.inj same
      cases r with
      | help =>
        cases r' with
        | help => exact ⟨congrArg Help.page h.program, rfl⟩
        | version => cases same
        | report s' => cases same
      | version =>
        cases r' with
        | help => cases same
        | version => exact ⟨rfl, rfl⟩
        | report s' => cases same
      | report s =>
        cases r' with
        | help => cases same
        | version => cases same
        | report s' =>
          have settings : s'.silent = s.silent := Request.report.inj same
          obtain ⟨level, settled⟩ := exists_level asks asked
          obtain ⟨level', settled'⟩ := exists_level asks' asked'
          simp only [settled, settled', h.coloring settings, h.report_eq settings]
          exact report_printsSame w s _ level level'

end Invocation.SameButLog

end LintReport.Command
