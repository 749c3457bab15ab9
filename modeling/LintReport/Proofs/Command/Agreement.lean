/-
  LintReport.Proofs.Command.Agreement — what the command prints against what is rendered for the
  files it reads.

  The command does not render its files in one step. It reads them from where its arguments say,
  ends early when there are none, makes the report, prints it on a console that may take the control
  sequences out again, and takes its exit code from the counts of the report. None of these steps
  changes anything: whenever the files can be rendered in some colours, the command prints what is
  rendered in its own.

  Proved:
  - `convert_of_caseOf`: a value is found by its name in any case.
  - `exists_render`: whether files can be rendered does not depend on the colours.
  - `run_of_formats`: a run whose files can be rendered prints them so, unless half of a surrogate
    pair is shown.
  - `run_agrees`: that, and what a run prints and tells that fails.
  - `styled_complaint`: a path with a control sequence, which a run in colours writes, and results
    whose report is rendered but not printed.
-/

import LintReport.Proofs.Command.Complaints
import LintReport.Proofs.Command.Verbosity
import LintReport.Proofs.Report.Limits
import Mathlib.Data.List.Forall2

namespace LintReport

open Terminal (Coloring esc unstyled)

/-! ## Names in any case -/

namespace Text

/-- The text spells the name, each letter as it is or in upper case. -/
def CaseOf (text name : Text) : Prop := List.Forall₂ (fun c d => c = d ∨ c = d.toUpper) text name

instance (text name : Text) : Decidable (CaseOf text name) :=
  inferInstanceAs (Decidable (List.Forall₂ _ text name))

theorem lower_of_caseOf {text name : Text} (h : CaseOf text name)
    (letters : ∀ d ∈ name, lowerChar d.toUpper = lowerChar d) : lower text = lower name := by
  unfold CaseOf at h
  induction h with
  | nil => rfl
  | cons same _ ih =>
    obtain ⟨first, rest⟩ := List.forall_mem_cons.mp letters
    have head : lowerChar _ = lowerChar _ := same.elim (congrArg lowerChar) fun upper =>
      (congrArg lowerChar upper).trans first
    exact congrArg₂ List.cons head (ih rest)

end Text

namespace Command

open Text (CaseOf)

/-- A value is found by its name in any case. -/
theorem Choice.convert_of_caseOf {α : Type} {choice : Choice α} {value name : Text} {a : α}
    (h : CaseOf value name) (letters : ∀ d ∈ name, Text.lowerChar d.toUpper = Text.lowerChar d)
    (named : choice.convert name = .ok a) : choice.convert value = .ok a := by
  unfold Choice.convert at named ⊢
  rw [Text.lower_of_caseOf h letters]
  cases found : choice.find? fun m => Text.lower m.1 = Text.lower name with
  | none => simp only [found, reduceCtorEq] at named
  | some m => simpa only [found] using named

theorem Policy.letters (policy : Policy) :
    ∀ d ∈ policy.name, Text.lowerChar d.toUpper = Text.lowerChar d := by
  have all : policy.name.all fun d => Text.lowerChar d.toUpper == Text.lowerChar d := by
    cases policy <;> rfl
  simpa using all

theorem ColorChoice.letters (choice : ColorChoice) :
    ∀ d ∈ choice.name, Text.lowerChar d.toUpper = Text.lowerChar d := by
  have all : choice.name.all fun d => Text.lowerChar d.toUpper == Text.lowerChar d := by
    cases choice <;> rfl
  simpa using all

/-- The arguments ask for a report with this policy, named in any case or, for sums, not at all.
Where they name colours they name known ones, in any case. -/
structure Parsed.AsksFor (p : Parsed) (policy : Policy) : Prop where
  report : p.first? Flag.isEager = none
  source : p.operands.length ≤ 1
  color : ∀ v, p.value? .color = some v → ∃ choice : ColorChoice, CaseOf v choice.name
  policy : (p.value? .mergePolicy = none ∧ policy = .sum) ∨
    ∃ v, p.value? .mergePolicy = some v ∧ CaseOf v policy.name

theorem Parsed.AsksFor.exists_request {p : Parsed} {policy : Policy} (h : p.AsksFor policy) :
    ∃ color, p.request = .ok (.report (p.settings color policy)) := by
  have color : ∃ color, p.color? = .ok color := by
    unfold Parsed.color?
    cases value : p.value? .color with
    | none => exact ⟨none, rfl⟩
    | some v =>
      obtain ⟨choice, named⟩ := h.color v value
      refine ⟨some choice, ?_⟩
      simp only [Choice.convert_of_caseOf named choice.letters (Choice.convert_color choice)]
  have asked : p.policy = .ok policy := by
    unfold Parsed.policy
    rcases h.policy with ⟨unset, rfl⟩ | ⟨v, value, named⟩
    · rw [unset]
    · simp only [value,
        Choice.convert_of_caseOf named (Policy.letters policy) (Choice.convert_policy policy)]
  obtain ⟨color, chosen⟩ := color
  exact ⟨color, Parsed.request_eq_report_iff.mpr
    ⟨h.report, h.source, color, policy, chosen, asked, rfl⟩⟩

end Command

/-! ## What is rendered -/

namespace Run

/-- The text of a run is that of its report. -/
theorem render_report_of_render {coloring : Coloring} {policy : Policy}
    {files : List FileFindings} {text : Text} (h : render coloring policy files = .ok text) :
    (report coloring policy files).render coloring = .ok text := by
  rw [render_eq] at h
  split at h
  · exact h
  · cases h

/-- Whether files can be rendered does not depend on the colours. -/
theorem exists_render {a : Coloring} {policy : Policy} {files : List FileFindings} {text : Text}
    (h : render a policy files = .ok text) (b : Coloring) :
    ∃ text, render b policy files = .ok text := by
  rw [render_eq] at h ⊢
  by_cases short : ShortPlaces files
  · rw [if_pos short] at h ⊢
    cases other : (report b policy files).render b with
    | ok text => exact ⟨text, rfl⟩
    | error e =>
      have long := (Report.render_eq_error_iff b _ e).mp other
      rw [Report.total, counts_report_coloring b a] at long
      have fails := (Report.render_eq_error_iff a _ e).mpr long
      cases h.symm.trans fails
  · rw [if_neg short] at h
    cases h

end Run

namespace Command

/-- The arguments of the run and its input can be read, it asks for a level, and the files it reads
can be rendered with this policy, in whatever colours. -/
structure Invocation.Formats (w : Invocation) (p : Parsed) (policy : Policy)
    (files : List FileFindings) : Prop where
  parsed : parse w.arguments = .ok p
  asks : p.AsksFor policy
  level : w.AsksForLevel
  input : ∃ text events, w.results (p.operands.headD ['-']) = .ok text ∧
    FileFindings.read text = .ok (files, events)
  formats : ∃ coloring text, Run.render coloring policy files = .ok text

/-- A run whose files can be rendered prints them in its own colours, or without control sequences
if it has none, and ends as their counts have it; with half of a surrogate pair to print, it breaks
off. -/
theorem run_of_formats {w : Invocation} {p : Parsed} {policy : Policy} {files : List FileFindings}
    (h : w.Formats p policy files) (c : Coloring) :
    ∃ s text, Request.ofArguments w.arguments = .ok (.report s) ∧
      Run.render (s.coloring w.environment w.isTerminal) policy files = .ok text ∧
      (w.showsHalf s = false ∨ text = [] →
        (w.run c).output = Console.shown (s.coloring w.environment w.isTerminal) text ∧
        (w.run c).ending =
          .exit (exitCodeOf (Run.report (s.coloring w.environment w.isTerminal) policy files))) ∧
      (w.showsHalf s = true → text ≠ [] →
        (w.run c).output = [] ∧ (w.run c).ending = .crash .halfInOutput) := by
  obtain ⟨color, request⟩ := h.asks.exists_request
  have asked := ofArguments_eq_ok_iff.mpr ⟨p, h.parsed, request⟩
  obtain ⟨text, events, results, read⟩ := h.input
  have reads : w.Reads (p.settings color policy) files :=
    ⟨⟨asked, Invocation.exists_level h.level asked⟩, text, events, results, read⟩
  obtain ⟨coloring, shown, rendered⟩ := h.formats
  obtain ⟨printed, own⟩ := Run.exists_render rendered
    ((p.settings color policy).coloring w.environment w.isTerminal)
  have output : (w.run c).output = if w.showsHalf (p.settings color policy) then []
      else Console.shown ((p.settings color policy).coloring w.environment w.isTerminal) printed := by
    have same : (p.settings color policy).policy = policy := rfl
    rw [output_of_reads reads rfl, same, own]
  have ending := (ending_of_reads reads c).trans
    (endingOn_of_render (Run.render_report_of_render own) _)
  refine ⟨_, printed, asked, own, ?_, ?_⟩
  · intro written
    rcases written with paired | rfl
    · rw [output, ending, paired]
      exact ⟨rfl, rfl⟩
    · refine ⟨?_, ending.trans (if_neg fun broken => broken.2 rfl)⟩
      rw [output]
      cases w.showsHalf _ <;> cases Settings.coloring _ w.environment w.isTerminal <;> rfl
  · intro half shown
    rw [output, ending]
    exact ⟨if_pos half, if_pos ⟨half, shown⟩⟩

/-! ## Agreement -/

/-- The command and the functions it is put together from agree. Where the files it reads can be
rendered, in whatever colours, it prints them as they are rendered in its own, or without control
sequences if it has none, and ends with the code for errors exactly when the report counts one;
without files it prints nothing and succeeds. Only half of a surrogate pair in a text that is to be
printed breaks it off, before it has printed anything. Where it ends with the code of a failure it
prints nothing but one line with the reason on the error stream, without control sequences if it has
no colours; the line is the one told, without sequences or further line feeds, unless the path it
has been given or the words of the system hold them. -/
theorem run_agrees (w : Invocation) (c : Coloring) :
    (∀ p policy files, w.Formats p policy files →
      ∃ s text, Request.ofArguments w.arguments = .ok (.report s) ∧
        Run.render (s.coloring w.environment w.isTerminal) policy files = .ok text ∧
        (w.showsHalf s = false ∨ text = [] →
          (s.coloring w.environment w.isTerminal = .full → (w.run c).output = text) ∧
          (s.coloring w.environment w.isTerminal = .off → (w.run c).output = unstyled text) ∧
          ∀ a, (w.run c).ending = .exit
            (if 0 < (Run.report a policy files).counts.errors then .lintErrors else .success)) ∧
        (w.showsHalf s = true → text ≠ [] →
          (w.run c).output = [] ∧ (w.run c).ending = .crash .halfInOutput) ∧
        (files = [] → (w.run c).output = [] ∧ (w.run c).ending = .exit .success)) ∧
    (∀ code : ExitCode, code.code ∈ [64, 65, 66, 74] → (w.run c).ending = .exit code →
      ∃ s f, Request.ofArguments w.arguments = .ok (.report s) ∧
        w.prepared s = .error (.failure f) ∧ f.exitCode = code ∧ (w.run c).output = [] ∧
        (s.coloring w.environment w.isTerminal = .full → (w.run c).errors = f.line) ∧
        (s.coloring w.environment w.isTerminal = .off → (w.run c).errors = unstyled f.line) ∧
        (Inline s.source →
          (∀ e, w.openFile (Path.ofText s.source) = .refused e → Inline e.text) →
            Inline f.message ∧ (w.run c).errors = f.line)) := by
  refine ⟨?_, ?_⟩
  · intro p policy files h
    obtain ⟨s, text, asked, rendered, whole, broken⟩ := run_of_formats h c
    refine ⟨s, text, asked, rendered, ?_, broken, ?_⟩
    · intro written
      obtain ⟨printed, ends⟩ := whole written
      refine ⟨?_, ?_, ?_⟩
      · intro full
        rw [printed, full, Console.shown_full]
      · intro off
        rw [printed, off, Console.shown]
      · intro a
        rw [ends, exitCodeOf, counts_report_coloring _ a]
    · rintro rfl
      cases rendered
      obtain ⟨printed, ends⟩ := whole (.inr rfl)
      refine ⟨?_, ?_⟩
      · rw [printed]
        cases s.coloring w.environment w.isTerminal <;> rfl
      · rw [ends]
        cases policy <;> rfl
  · intro code failed ends
    obtain ⟨s, f, asked, stopped, exits⟩ := exists_failure failed ends
    obtain ⟨-, output, errors⟩ := run_stopped asked stopped c
    have told : (w.run c).errors =
        Console.shown (s.coloring w.environment w.isTerminal) f.line := errors
    refine ⟨s, f, asked, stopped, exits, output, ?_, ?_, ?_⟩
    · intro full
      rw [told, full, Console.shown_full]
    · intro off
      rw [told, off, Console.shown]
    · intro source system
      have message := inline_message stopped source system
      have line : esc ∉ f.line :=
        List.not_mem_append (Inline.append (by decide) message).esc_not_mem (by decide)
      refine ⟨message, ?_⟩
      rw [told]
      cases s.coloring w.environment w.isTerminal with
      | full => rfl
      | off => exact Terminal.unstyled_eq_self line

theorem run_agrees_any_case :
    let results : Text :=
      "[\x7b\"messages\":[\x7b\"message\":\"m\"\x7d],\"errorCount\":1\x7d]".toList
    let w : Invocation :=
      { program := [], environment := {}, isTerminal := false, input := []
        arguments := ["-q", "--merge-policy=FIRST-nonZero", "r.json", "--color", "ALWAYS"].map
          (·.toList)
        openFile := fun _ => .bytes (results.map fun c => UInt8.ofNat c.toNat) }
    let lost := { w with openFile := fun _ => .missing }
    (∃ text, Run.render .full .firstNonzero
        [⟨[], [{ text := ['m'] }], ⟨1, 0, 0, 0⟩, .none⟩] = .ok text ∧
      (w.run .off).output = text ∧ (w.run .off).ending = .exit .lintErrors) ∧
    (lost.run .off).output = [] ∧
      (lost.run .off).errors = "Error: Results file not found: r.json\n".toList := by
  intro results w lost
  have formats : w.Formats
      { given := [⟨.quiet, []⟩, ⟨.mergePolicy, "FIRST-nonZero".toList⟩, ⟨.color, "ALWAYS".toList⟩]
        operands := ["r.json".toList] }
      .firstNonzero [⟨[], [{ text := ['m'] }], ⟨1, 0, 0, 0⟩, .none⟩] := by
    refine ⟨rfl, ⟨rfl, by decide, ?_, .inr ⟨_, rfl, by decide⟩⟩, ⟨⟨none, rfl⟩, ?_⟩,
      ⟨results, [.loaded 1], rfl, rfl⟩, ⟨.off, _, rfl⟩⟩
    · intro v value
      cases value
      exact ⟨.always, by decide⟩
    · intro p parsed
      cases parsed
      exact .inl rfl
  refine ⟨?_, ?_⟩
  · obtain ⟨s, text, asked, rendered, printed, -, -⟩ := (run_agrees w .off).1 _ _ _ formats
    cases asked
    obtain ⟨full, -, ends⟩ := printed (.inl rfl)
    exact ⟨text, rendered, full rfl, ends .off⟩
  · obtain ⟨s, f, asked, stopped, -, output, -, -, told⟩ :=
      (run_agrees lost .off).2 .fileNotFound (by decide) rfl
    cases asked
    cases stopped
    exact ⟨output, (told (by decide) nofun).2⟩

/-- A path with a control sequence, which a run in colours writes too; and a file named by half of a
surrogate pair, whose report can be rendered, but of which a run prints nothing. -/
theorem styled_complaint :
    let w : Invocation :=
      { program := "lintdiffline".toList
        arguments := ["--color=always".toList, "\x1b[31mx".toList], environment := {}
        isTerminal := false, input := [], openFile := fun _ => .missing }
    let results : Text := "[\x7b\"filePath\":\"\\ud800\",\"version\":\"lineOnly\",".toList
      ++ "\"messages\":[\x7b\x7d],\"warningCount\":1\x7d]".toList
    let torn : Invocation :=
      { w with
        arguments := ["--no-color".toList], input := results.map fun c => UInt8.ofNat c.toNat }
    ((w.run .off).ending = .exit .fileNotFound ∧
      (w.run .off).errors = "Error: Results file not found: \x1b[31mx\n".toList ∧
      unstyled (w.run .off).errors = "Error: Results file not found: x\n".toList) ∧
    (∃ files events text, FileFindings.read results = .ok (files, events) ∧
      Run.render .off .sum files = .ok text ∧ text ≠ []) ∧
    (torn.run .off).output = [] ∧ (torn.run .off).ending = .crash .halfInOutput := by
  intro w results torn
  have rendered : ∃ files events text, FileFindings.read results = .ok (files, events) ∧
      Run.render .off .sum files = .ok text ∧ text ≠ [] :=
    ⟨[⟨['\ufffd'], [{}], ⟨0, 1, 0, 0⟩, some .lineOnly⟩], [.loaded 1], _, rfl, rfl, by decide⟩
  have broken : (torn.run .off).output = [] ∧ (torn.run .off).ending = .crash .halfInOutput := by
    decide +kernel
  exact ⟨⟨rfl, rfl, rfl⟩, rendered, broken⟩

end Command

end LintReport
