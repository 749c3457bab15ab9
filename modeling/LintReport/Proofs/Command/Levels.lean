/-
  LintReport.Proofs.Command.Levels — the level that a process logs at.

  Two operations look for a level in the environment: a run of the command, and a set-up of the
  logger that is given none. A run takes whatever level is asked for there. A set-up takes zero for
  no level, and sets the greatest instead, so that a value that asks for all records leaves hardly
  any.

  Proved:
  - `level_step` / `level_after`: a process logs at the level that was settled last.
  - `ofEnvironment_eq_zero_iff`: the values that ask for level zero.
  - `run_and_setUp_agree_iff`: a run sets the level that the environment asks for, and a set-up does
    so too unless it is zero.
  - `setUp_muted_at_zero`: a warning that a run has in its log and a set-up keeps out.
-/

import LintReport.Proofs.Command.Exclusion
import LintReport.Proofs.Command.History
import LintReport.Proofs.Log.Level

namespace LintReport

open Text (digitValue?)
open Text.Numeral (Denotes maxDigits)

namespace Log.Level

/-! ## Level zero -/

/-- A number of zeros only, in the digits of any script. -/
def IsZeros (s : Text) : Prop :=
  s ≠ [] ∧ (∀ c ∈ s, digitValue? c = some 0) ∧ s.length ≤ maxDigits

theorem denotes_zero_iff {s : Text} : Denotes s 0 ↔ ∀ c ∈ s, digitValue? c = some 0 := by
  constructor
  · intro h c hc
    obtain ⟨digits, values, zero⟩ := h
    have value : digitValue? c ∈ digits.map some := values ▸ List.mem_map_of_mem hc
    obtain ⟨d, hd, eq⟩ := List.mem_map.mp value
    rw [← eq, Nat.digits_zero_of_eq_zero (by decide) zero d (List.mem_reverse.mpr hd)]
  · intro h
    refine ⟨List.replicate s.length 0, ?_, ?_⟩
    · rw [List.map_replicate]
      exact List.map_eq_replicate_iff.mpr h
    · rw [List.reverse_replicate, Nat.ofDigits_replicate_zero]

theorem ofEnvironment_eq_zero_iff {text : Text} :
    ofEnvironment (some text) = .ok (some 0) ↔
      asked text = "NOTSET".toList ∨ IsZeros (asked text) := by
  have named : (asked text, (0 : Level)) ∈ byName ↔ asked text = "NOTSET".toList := by
    simp [byName, unset, trace, debug, info, warning, error, critical]
  rw [ofEnvironment_eq_level_iff, named, or_comm]
  refine or_congr_right ⟨?_, ?_⟩
  · rintro ⟨n, ⟨nonempty, denotes, short⟩, zero⟩
    obtain rfl : n = 0 := by
      simpa using zero.symm
    exact ⟨nonempty, denotes_zero_iff.mp denotes, short⟩
  · rintro ⟨nonempty, zeros, short⟩
    exact ⟨0, ⟨nonempty, denotes_zero_iff.mpr zeros, short⟩, rfl⟩

end Log.Level

namespace Command

open Terminal (Coloring)
open Log (Event Level Logger)

/-! ## Parts of a run that leave the logger alone -/

def Session.KeepsLogger {α : Type} (m : StateM Session α) : Prop :=
  ∀ t : Session, (m.run t).run.2.logger = t.logger

namespace Session.KeepsLogger

variable {α β : Type}

theorem pure (a : α) : KeepsLogger (Pure.pure a) := fun _ => rfl

theorem bind {m : StateM Session α} {f : α → StateM Session β} (hm : KeepsLogger m)
    (hf : ∀ a, KeepsLogger (f a)) : KeepsLogger (m >>= f) :=
  fun t => (hf (m.run t).run.1 (m.run t).run.2).trans (hm t)

theorem get : KeepsLogger (MonadState.get : StateM Session Session) := fun _ => rfl

theorem print (s : Text) : KeepsLogger (Session.print s) := fun _ => rfl

theorem complain (s : Text) : KeepsLogger (Session.complain s) := fun _ => rfl

theorem setColoring (coloring : Coloring) : KeepsLogger (Session.setColoring coloring) :=
  fun _ => rfl

theorem note (events : List Event) : KeepsLogger (Session.note events) :=
  get.bind fun _ => complain _

theorem stop (console : Coloring) (s : Stop) : KeepsLogger (s.perform console) := by
  cases s with
  | failure f => exact (complain _).bind fun _ => pure _
  | crash c => exact pure _

theorem printReport (console : Coloring) (r : Report) (half : Bool)
    (text : Except Text.Numeral.Error Text) :
    KeepsLogger (Session.printReport console r half text) := by
  cases text with
  | error e => exact pure _
  | ok text =>
    simp only [Session.printReport]
    split
    · exact pure _
    · exact (print _).bind fun _ => pure _

theorem settings (s : Settings) (console : Coloring) (files : List FileFindings) (half : Bool) :
    KeepsLogger (s.perform console files half) := by
  refine (note _).bind fun _ => ?_
  split
  · exact pure _
  · exact get.bind fun _ => (note _).bind fun _ => get.bind fun _ => printReport console _ _ _

end Session.KeepsLogger

open Session (KeepsLogger)

/-! ## The level of a process -/

def Invocation.level? (w : Invocation) : Option Level :=
  match Request.ofArguments w.arguments with
  | .ok (.report s) => (w.level s).toOption
  | _ => none

/-- A run sets its level before all else, and leaves the logger so. -/
theorem logger_performIn (w : Invocation) (p : Process) :
    (w.performIn p).2.logger =
      match w.level? with
      | some level => p.logger.setLevel level errorStream
      | none => p.logger := by
  unfold Invocation.performIn Invocation.perform Invocation.level?
  cases Request.ofArguments w.arguments with
  | error e => rfl
  | ok r =>
    cases r with
    | help => rfl
    | version => rfl
    | report s =>
      cases settled : w.level s with
      | error stop =>
        simp only [settled]
        exact KeepsLogger.stop .off stop _
      | ok level =>
        simp only [settled]
        let console := s.coloring w.environment w.isTerminal
        have rest (m : StateM Session Ending) (keeps : KeepsLogger m) :
            ((Session.setUpLogger level >>= fun _ => Session.setColoring console >>= fun _ => m).run
              { toProcess := p }).run.2.logger = p.logger.setLevel level errorStream :=
          ((KeepsLogger.setColoring console).bind fun _ => keeps)
            { toProcess := { p with logger := p.logger.setLevel level errorStream } }
        refine rest _ ?_
        cases w.results s.source with
        | error stop => exact KeepsLogger.stop _ stop
        | ok text =>
          cases read : readFiles text with
          | error stop =>
            simp only [read]
            exact KeepsLogger.stop _ stop
          | ok r =>
            simp only [read]
            exact (KeepsLogger.note _).bind fun _ => KeepsLogger.settings s _ _ _

def Operation.level? : Operation → Option Level
  | .run w => w.level?
  | .setUpLogging given environment _ => (Logger.levelFor given environment).toOption
  | .setColoring _ | .call => none

theorem level_step (p : Process) (o : Operation) :
    (p.step o).logger.level = o.level?.getD p.logger.level := by
  cases o with
  | run w =>
    change (w.performIn p).2.logger.level = _
    rw [logger_performIn, Operation.level?]
    cases w.level? <;> rfl
  | setColoring coloring => rfl
  | setUpLogging given environment stream =>
    simp only [Process.step, Operation.level?, Logger.setUp_eq]
    cases Logger.levelFor given environment <;> rfl
  | call => rfl

/-- A process logs at the level that was settled last. -/
theorem level_after (p : Process) (history : List Operation) :
    (p.after history).logger.level =
      (history.reverse.findSome? Operation.level?).getD p.logger.level :=
  after_of_step (·.logger.level) level_step p history

/-! ## The level that the environment asks for -/

/-- The word gives options for a louder or a quieter log, and nothing else. -/
def IsLogWord (word : Text) : Prop :=
  ∃ given, wordOf word = .ok (.options given) ∧ ∀ g ∈ given, g.flag.isVerbosity = true

/-- Any number of options for the log in front of the other arguments make no other difference. -/
theorem sameButLog_append (w : Invocation) {words : List Text} (h : ∀ word ∈ words, IsLogWord word) :
    w.SameButLog { w with arguments := words ++ w.arguments } := by
  induction words with
  | nil => exact ⟨rfl, rfl, rfl, rfl, rfl, rfl⟩
  | cons word words ih =>
    obtain ⟨given, read, only⟩ := h word List.mem_cons_self
    have one := sameButLog_cons { w with arguments := words ++ w.arguments } read only
    have others := ih fun other mem => h other (List.mem_cons_of_mem word mem)
    exact ⟨rfl, one.arguments.trans others.arguments, rfl, rfl, rfl, rfl⟩

variable {w : Invocation} {s : Settings} {value : Option Text} {level : Level}

theorem level?_of_asked (accepted : Request.ofArguments w.arguments = .ok (.report s))
    (asked : Level.ofEnvironment w.environment.logLevel = .ok (some level)) :
    w.level? = some level := by
  unfold Invocation.level?
  rw [accepted]
  simp only [Invocation.level, asked, Settings.level]
  rfl

theorem levelFor_of_asked (asked : Level.ofEnvironment value = .ok (some level)) :
    Logger.levelFor none value = .ok (if level = 0 then Level.critical else level) := by
  simp only [Logger.levelFor, asked]

/-- Where the environment asks for a level, a run whose arguments are accepted sets the logger of its
process to exactly this level, with any number of options for the log. A set-up that is given no
level does so too, unless the level is zero: then it sets the greatest. Zero is asked for by its name
and by a number of zeros only. -/
theorem run_and_setUp_agree_iff (asked : Level.ofEnvironment value = .ok (some level)) :
    (∀ (w : Invocation) (s : Settings), w.environment.logLevel = value →
      Request.ofArguments w.arguments = .ok (.report s) →
        ∀ words : List Text, (∀ word ∈ words, IsLogWord word) → ∀ p : Process,
          (p.step (.run { w with arguments := words ++ w.arguments })).logger.level = level) ∧
      (∀ (p : Process) (stream : Nat),
        let set := (p.step (.setUpLogging none value stream)).logger.level
        (set = level ↔ level ≠ 0) ∧ (level = 0 → set = Level.critical)) ∧
      (level = 0 ↔ ∃ text, value = some text ∧
        (Level.asked text = "NOTSET".toList ∨ Level.IsZeros (Level.asked text))) := by
  refine ⟨?_, ?_, ?_⟩
  · intro w s environment accepted words only p
    obtain ⟨s', accepted', -⟩ := (sameButLog_append w only).exists_report accepted
    rw [level_step, Operation.level?, level?_of_asked accepted' (environment ▸ asked),
      Option.getD_some]
  · intro p stream set
    have settled : set = if level = 0 then Level.critical else level := by
      simp only [set, level_step, Operation.level?, levelFor_of_asked asked]
      rfl
    by_cases zero : level = 0
    · have critical : Level.critical ≠ 0 := by decide
      rw [settled, if_pos zero, zero]
      exact ⟨⟨fun h => absurd h critical, fun h => absurd rfl h⟩, fun _ => rfl⟩
    · rw [settled, if_neg zero]
      exact ⟨⟨fun _ => zero, fun _ => rfl⟩, fun h => absurd h zero⟩
  · cases value with
    | none => cases asked
    | some text =>
      simp only [Option.some.injEq, exists_eq_left', ← Level.ofEnvironment_eq_zero_iff, asked,
        Except.ok.injEq]

/-- A number in the digits of another script, with blanks around it. -/
theorem run_and_setUp_agree_iff_other_script :
    let value : Option Text := some " \u0662\u0665\n".toList
    let w : Invocation :=
      { program := [], arguments := ["--no-color".toList], environment := { logLevel := value }
        isTerminal := false, input := [0xFF], openFile := fun _ => .missing }
    let words := ["-v".toList, "-vv".toList, "--verbose".toList]
    Level.ofEnvironment value = .ok (some 25) ∧
      Request.ofArguments w.arguments = .ok (.report { noColor := true }) ∧
      (∀ word ∈ words, IsLogWord word) ∧
      (Process.step {} (.run { w with arguments := words ++ w.arguments })).logger.level = 25 ∧
      (Process.step {} (.setUpLogging none value 7)).logger.level = 25 := by
  intro value w words
  have asked : Level.ofEnvironment value = .ok (some 25) := rfl
  have accepted : Request.ofArguments w.arguments = .ok (.report { noColor := true }) := rfl
  have only : ∀ word ∈ words, IsLogWord word := by
    intro word mem
    simp only [words, List.mem_cons, List.not_mem_nil, or_false] at mem
    rcases mem with rfl | rfl | rfl <;> exact ⟨_, rfl, by decide⟩
  obtain ⟨run, setUp, -⟩ := run_and_setUp_agree_iff asked
  exact ⟨asked, accepted, only, run w _ rfl accepted words only {}, (setUp {} 7).1.mpr (by decide)⟩

/-- With a value that asks for level zero a run takes it, and has a warning in its log; a set-up sets
the greatest level, and the warning is written nowhere. -/
theorem setUp_muted_at_zero :
    let value : Option Text := some "NOTSET".toList
    let w : Invocation :=
      { program := "lintdiffline".toList, arguments := ["-v".toList]
        environment := { logLevel := value }, isTerminal := false
        input := "[]".toList.map fun c => UInt8.ofNat c.toNat, openFile := fun _ => .missing }
    let ran : Process := Process.step {} (.run w)
    let set : Process := Process.step {} (.setUpLogging none value errorStream)
    let warning : Log.Record := ⟨Level.warning, "w".toList, ⟨[], 0, []⟩⟩
    Level.ofEnvironment value = .ok (some 0) ∧
      Request.ofArguments w.arguments = .ok (.report { verbose := 1 }) ∧
      ran.logger.level = 0 ∧ set.logger.level = 50 ∧
      ran.logger.emit .off warning ≠ [] ∧ set.logger.emit .off warning = [] := by
  refine ⟨rfl, rfl, rfl, rfl, ?_, rfl⟩
  exact List.cons_ne_nil _ _

end Command

end LintReport
