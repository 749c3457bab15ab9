/-
  LintReport.Proofs.Command.Exclusion — options for a louder and for a quieter log, both given.

  The two exclude each other, but that is looked at only where the level of the log is taken from
  the options. When the environment names a level, the options are not asked, and a run with both
  goes on as if it had neither. When its value breaks the run off, nothing is said of the options
  either.

  Proved:
  - `run_of_level`: a level from the environment makes the options for the log count for nothing.
  - `conflict_refused_iff`: both options are refused exactly when the environment asks for no level.
  - `conflict_passed`: a level from the environment, and both options pass.
-/

import LintReport.Proofs.Command.Verbosity
import LintReport.Proofs.Command.Words

namespace LintReport.Command

open Terminal (Coloring)
open Log (Level)

namespace Invocation

variable {w w' : Invocation} {s : Settings} {level : Level}

theorem SameButLog.exists_report (h : w.SameButLog w')
    (asked : Request.ofArguments w.arguments = .ok (.report s)) :
    ∃ s', Request.ofArguments w'.arguments = .ok (.report s') ∧ s'.silent = s.silent := by
  have same := h.request
  rw [asked] at same
  obtain ⟨r, asked', silenced⟩ := exists_of_map_eq_ok same
  cases r with
  | help => cases silenced
  | version => cases silenced
  | report s' => exact ⟨s', asked', Request.report.inj silenced⟩

/-- Where the environment names a level, the options for the log count for nothing: with others or
with none the run is the same, in its log and all else. -/
theorem run_of_level (h : w.SameButLog w') (environment : w'.environment = w.environment)
    (asked : Request.ofArguments w.arguments = .ok (.report s))
    (named : Level.ofEnvironment w.environment.logLevel = .ok (some level)) (c : Coloring) :
    w'.run c = w.run c := by
  obtain ⟨s', asked', settings⟩ := h.exists_report asked
  have settled : w.level s = .ok level := by simp only [Invocation.level, named, Settings.level]
  have settled' : w'.level s' = .ok level := by
    simp only [Invocation.level, environment, named, Settings.level]
  unfold Invocation.run
  rw [asked, asked']
  simp only [settled, settled', h.coloring settings]
  exact h.report_eq settings _ level

/-- A run that fails as one with contradicting arguments has asked the options for its level, and
has had both. -/
theorem unset_of_usageError {c : Coloring} (h : (w.run c).ending = .exit .usageError) :
    Level.ofEnvironment w.environment.logLevel = .ok none := by
  rcases run_cases w c with ⟨code, fails, ends⟩ | ⟨-, cause, ends⟩ | ⟨-, ends⟩ | ⟨-, ends⟩
  · cases h.symm.trans ends
    cases fails with
    | verbosity asked unset louder quieter => exact unset
  · cases h.symm.trans ends
  · cases h.symm.trans ends
  · cases h.symm.trans ends

theorem counts_of_occursIn (asked : Request.ofArguments w.arguments = .ok (.report s))
    (louder : Flag.verbose.OccursIn w.arguments) (quieter : Flag.quiet.OccursIn w.arguments) :
    0 < s.verbose ∧ 0 < s.quiet := by
  obtain ⟨p, parsed, request⟩ := ofArguments_eq_ok_iff.mp asked
  obtain ⟨-, -, color, policy, -, -, rfl⟩ := Parsed.request_eq_report_iff.mp request
  exact ⟨(occursIn_iff parsed rfl).mpr louder, (occursIn_iff parsed rfl).mpr quieter⟩

end Invocation

/-- Options for a louder and for a quieter log are refused together exactly when the environment
asks for no level. Then nothing is printed but the complaint, and the colours stay as they were. A
value of the environment that cannot be read breaks the run off. A level from the environment makes
the run go on, the same as with any other options for the log or with none. -/
theorem conflict_refused_iff {w : Invocation} {s : Settings}
    (asked : Request.ofArguments w.arguments = .ok (.report s))
    (louder : Flag.verbose.OccursIn w.arguments) (quieter : Flag.quiet.OccursIn w.arguments)
    (c : Coloring) :
    ((w.run c).ending = .exit .usageError ↔
      Level.ofEnvironment w.environment.logLevel = .ok none) ∧
    (Level.ofEnvironment w.environment.logLevel = .ok none →
      w.run c =
        { ending := .exit .usageError
          output := []
          errors :=
            "Error: The '--verbose' and '--quiet' options are mutually exclusive.\n".toList
          coloring := c }) ∧
    (∀ e, Level.ofEnvironment w.environment.logLevel = .error e →
      w.run c = { ending := .crash (.numeral e), output := [], errors := [], coloring := c }) ∧
    (∀ level, Level.ofEnvironment w.environment.logLevel = .ok (some level) →
      ∀ w', w.SameButLog w' → w'.environment = w.environment → w'.run c = w.run c) := by
  have stopped {stop : Stop} (h : w.level s = .error stop) :
      w.run c = { stop.outcome .off [] with coloring := c } := by
    unfold Invocation.run
    rw [asked]
    simp only [h]
  have refused (unset : Level.ofEnvironment w.environment.logLevel = .ok none) :
      w.run c = { (Stop.failure .verbosityConflict).outcome .off [] with coloring := c } := by
    obtain ⟨more, less⟩ := Invocation.counts_of_occursIn asked louder quieter
    exact stopped (level_eq_error_iff.mpr (.inr ⟨unset, more, less, rfl⟩))
  refine ⟨⟨Invocation.unset_of_usageError, fun unset => by rw [refused unset]; rfl⟩, ?_, ?_, ?_⟩
  · intro unset
    rw [refused unset]
    rfl
  · intro e unreadable
    exact stopped (level_eq_error_iff.mpr (.inl ⟨e, unreadable, rfl⟩))
  · intro level named w' same environment
    exact Invocation.run_of_level same environment asked named c

/-- A name that no level has is no level. -/
theorem conflict_refused_iff_unknown_level :
    let w : Invocation :=
      { program := [], arguments := ["--quiet", "--color", "always", "-vvv", "r.json"].map (·.toList)
        environment := { logLevel := some "LOUD".toList }, isTerminal := false, input := []
        openFile := fun _ => .missing }
    Flag.verbose.OccursIn w.arguments ∧ Flag.quiet.OccursIn w.arguments ∧
      w.run .full =
        { ending := .exit .usageError
          output := []
          errors := "Error: The '--verbose' and '--quiet' options are mutually exclusive.\n".toList
          coloring := .full } := by
  intro w
  have asked : Request.ofArguments w.arguments =
      .ok (.report
        { verbose := 3, quiet := 1, color := some .always, source := "r.json".toList }) := rfl
  have louder : Flag.verbose.OccursIn w.arguments := (occursIn_iff rfl rfl).mp (by decide)
  have quieter : Flag.quiet.OccursIn w.arguments := (occursIn_iff rfl rfl).mp (by decide)
  exact ⟨louder, quieter, (conflict_refused_iff asked louder quieter .full).2.1 rfl⟩

/-- With a level from the environment both options pass, and the run chooses its colours. -/
theorem conflict_passed :
    let w : Invocation :=
      { program := "lintdiffline".toList, arguments := ["-v".toList, "-q".toList]
        environment := { logLevel := some "INFO".toList }, isTerminal := false
        input := "[]".toList.map fun c => UInt8.ofNat c.toNat, openFile := fun _ => .missing }
    Request.ofArguments w.arguments = .ok (.report { verbose := 1, quiet := 1 }) ∧
      Flag.verbose.OccursIn w.arguments ∧ Flag.quiet.OccursIn w.arguments ∧
      (w.run .full).ending = .exit .success ∧ (w.run .full).coloring = .off := by
  intro w
  have louder : Flag.verbose.OccursIn w.arguments := (occursIn_iff rfl rfl).mp (by decide)
  have quieter : Flag.quiet.OccursIn w.arguments := (occursIn_iff rfl rfl).mp (by decide)
  exact ⟨rfl, louder, quieter, rfl, rfl⟩

end LintReport.Command
