/-
  LintReport.Proofs.Command.History — a run does not depend on what its process did before.

  A process hands its colours and its logger on from one operation to the next, and a run prints and
  logs in them. But it sets both before it prints or logs anything in them, and what it writes
  before that has no colours. All that earlier operations leave to a run is the colours that are on
  until it chooses its own; a run that never chooses leaves them to the next.

  Proved:
  - `coloring_after`: after some operations the colours are on that were last chosen.
  - `run_independent`: a run writes and ends the same in any process; the colours it leaves are its
    own or, where it has none, the ones it found; and how much it logs changes only its log.
-/

import LintReport.Command.Process
import LintReport.Proofs.Command.Verbosity

namespace LintReport.Command

open Terminal (Coloring)
open Log (Level)

/-! ## The colours an operation leaves -/

def Invocation.chosen (w : Invocation) : Option Coloring :=
  match Request.ofArguments w.arguments with
  | .ok (.report s) =>
    match w.level s with
    | .ok _ => some (s.coloring w.environment w.isTerminal)
    | .error _ => none
  | _ => none

theorem chosen_of_starts {w : Invocation} {s : Settings} (h : w.Starts s) :
    w.chosen = some (s.coloring w.environment w.isTerminal) := by
  obtain ⟨level, settled⟩ := h.settled
  unfold Invocation.chosen
  rw [h.asked]
  simp only [settled]

theorem chosen_eq_none {w : Invocation} (h : ∀ s, ¬ w.Starts s) : w.chosen = none := by
  unfold Invocation.chosen
  cases asked : Request.ofArguments w.arguments with
  | error e => rfl
  | ok r =>
    cases r with
    | help => rfl
    | version => rfl
    | report s =>
      cases settled : w.level s with
      | error stop => simp only [settled]
      | ok level => exact absurd ⟨asked, level, settled⟩ (h s)

/-- A run with settled colours leaves these on, at whatever point it ends. -/
theorem coloring_report (w : Invocation) (s : Settings) (coloring : Coloring) (level : Level) :
    (w.report s coloring level).coloring = coloring := by
  unfold Invocation.report
  cases w.results s.source with
  | error stop => cases stop <;> rfl
  | ok text =>
    cases read : readFiles text with
    | error stop =>
      simp only [read]
      cases stop <;> rfl
    | ok r =>
      simp only [read, reportOn]
      by_cases none : r.1 = []
      · simp only [if_pos none]
      · simp only [if_neg none]
        cases (Run.report coloring s.policy r.1).render coloring with
        | error e => rfl
        | ok text =>
          simp only
          split <;> rfl

theorem coloring_run (w : Invocation) (c : Coloring) :
    (w.run c).coloring = w.chosen.getD c := by
  unfold Invocation.run Invocation.chosen
  cases Request.ofArguments w.arguments with
  | error e => rfl
  | ok r =>
    cases r with
    | help => rfl
    | version => rfl
    | report s =>
      cases settled : w.level s with
      | error stop => simp only [settled, Option.getD_none]
      | ok level => simp only [settled, coloring_report, Option.getD_some]

theorem coloring_performIn (w : Invocation) (p : Process) :
    (w.performIn p).2.coloring = w.chosen.getD p.coloring := by
  rw [← coloring_run, ← outcome_performIn]
  rfl

def Operation.chosen : Operation → Option Coloring
  | .run w => w.chosen
  | .setColoring coloring => some coloring
  | .setUpLogging _ _ _ | .call => none

theorem coloring_step (p : Process) (o : Operation) :
    (p.step o).coloring = o.chosen.getD p.coloring := by
  cases o with
  | run w => exact coloring_performIn w p
  | setColoring coloring => rfl
  | setUpLogging given environment stream =>
    simp only [Process.step]
    cases p.logger.setUp given environment stream <;> rfl
  | call => rfl

/-- What each operation either sets or leaves alone is, after some operations, as it was last set. -/
theorem after_of_step {α : Type} (field : Process → α) {sets : Operation → Option α}
    (step : ∀ p o, field (p.step o) = (sets o).getD (field p)) (p : Process)
    (history : List Operation) :
    field (p.after history) = (history.reverse.findSome? sets).getD (field p) := by
  unfold Process.after
  induction history generalizing p with
  | nil => rfl
  | cons o history ih =>
    rw [List.foldl_cons, ih, step, List.reverse_cons, List.findSome?_append]
    cases history.reverse.findSome? sets with
    | none => simp
    | some last => simp

/-- After some operations the colours are on that were last chosen. -/
theorem coloring_after (p : Process) (history : List Operation) :
    (p.after history).coloring =
      (history.reverse.findSome? Operation.chosen).getD p.coloring :=
  after_of_step (·.coloring) coloring_step p history

/-! ## Runs -/

def SameToUser (r t : Ending × Session) : Prop :=
  r.1 = t.1 ∧ r.2.output = t.2.output ∧ r.2.errors = t.2.errors

theorem performIn_sameToUser (w : Invocation) (p q : Process) :
    SameToUser (w.performIn p) (w.performIn q) := by
  have same := run_coloring_irrelevant w p.coloring q.coloring
  rw [← outcome_performIn, ← outcome_performIn] at same
  exact ⟨congrArg Outcome.ending same, congrArg Outcome.output same, congrArg Outcome.errors same⟩

/-- A run depends neither on what its process did before nor on how much it logs. After any earlier
operations it ends and writes as in any other process; a run whose arguments and level are settled
leaves its own colours on, any other the ones it found; and two runs that differ in the level of
their log only print the same and end alike. -/
theorem run_independent (w : Invocation) :
    (∀ (history : List Operation) (p q : Process),
      SameToUser (w.performIn (p.after history)) (w.performIn q)) ∧
    (∀ s, w.Starts s → ∀ p : Process,
      (w.performIn p).2.coloring = s.coloring w.environment w.isTerminal) ∧
    ((∀ s, ¬ w.Starts s) → ∀ p : Process, (w.performIn p).2.coloring = p.coloring) ∧
    (∀ w', w.SameButLog w' → w.AsksForLevel → w'.AsksForLevel → ∀ p p' : Process,
      (w'.performIn p').2.output = (w.performIn p).2.output ∧
        (w'.performIn p').1 = (w.performIn p).1) := by
  refine ⟨fun history p q => performIn_sameToUser w _ q, ?_, ?_, ?_⟩
  · intro s starts p
    rw [coloring_performIn, chosen_of_starts starts]
    rfl
  · intro never p
    rw [coloring_performIn, chosen_eq_none never]
    rfl
  · intro w' same asks asks' p p'
    have alike := same.run_printsSame asks asks' p.coloring p'.coloring
    rw [← outcome_performIn, ← outcome_performIn] at alike
    exact alike

theorem run_independent_traced :
    let results : Text := "[\x7b\"messages\":[\x7b\"message\":\"m\"\x7d],".toList
      ++ "\"warningCount\":1\x7d]".toList
    let w : Invocation :=
      { program := [], arguments := ["--color=always".toList, "-vv".toList], environment := {}
        isTerminal := false, input := results.map fun c => UInt8.ofNat c.toNat
        openFile := fun _ => .missing }
    let traced : Invocation :=
      { w with
        arguments := ["-q".toList, "--color=always".toList]
        environment := { logLevel := some "TRACE".toList } }
    let torn : Invocation := { w with arguments := ["-v".toList, "-q".toList] }
    let history := [.run torn, .setUpLogging none (some "TRACE".toList) 5, .run traced,
      .setColoring .off, .call]
    SameToUser (w.performIn (Process.after {} history)) (w.performIn { coloring := .full }) ∧
      (w.performIn (Process.after {} history)).2.coloring = .full ∧
      (torn.performIn { coloring := .full }).2.coloring = .full ∧
      (traced.performIn {}).2.output = (w.performIn {}).2.output ∧
      (traced.performIn {}).1 = (w.performIn {}).1 := by
  intro results w traced torn history
  have starts : w.Starts { verbose := 2, color := some .always } := ⟨rfl, _, rfl⟩
  have never (s : Settings) : ¬ torn.Starts s := by
    intro starts
    have asked : Request.ofArguments torn.arguments =
        .ok (.report { verbose := 1, quiet := 1 }) := rfl
    rw [starts.asked] at asked
    cases asked
    obtain ⟨level, settled⟩ := starts.settled
    cases settled
  have same : w.SameButLog traced := ⟨rfl, rfl, rfl, rfl, rfl, rfl⟩
  have asks : w.AsksForLevel :=
    ⟨⟨none, rfl⟩, fun p parsed => by cases parsed; exact .inr rfl⟩
  have asks' : traced.AsksForLevel :=
    ⟨⟨some Level.trace, rfl⟩, fun p parsed => by cases parsed; exact .inl rfl⟩
  exact ⟨(run_independent w).1 history {} { coloring := .full },
    (run_independent w).2.1 _ starts _, (run_independent torn).2.2.1 never _,
    (run_independent w).2.2.2 traced same asks asks' {} {}⟩

end LintReport.Command
