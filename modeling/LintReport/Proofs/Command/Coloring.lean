/-
  LintReport.Proofs.Command.Coloring — a run with colours and one without.

  Two runs that differ only in the colours asked for read the same findings and make the same report
  but for its codes. Without colours the console removes all control sequences from what it prints,
  those in paths too, so that its text is what the coloured one shows.

  Proved:
  - `placed_of_read`: findings that are read have a place.
  - `coloring_invisible`: the text of a run shows the same with colours as without, and so do two
    runs of the command, which end alike.
-/

import LintReport.Command.Run
import LintReport.Proofs.Command.Requests
import LintReport.Proofs.Report.Coloring

namespace LintReport

open Terminal (Coloring unstyled)
open Log (Event Level)

theorem placed_of_read {results : Text} {files : List FileFindings} {events : List Event}
    (h : FileFindings.read results = .ok (files, events)) {f : FileFindings} (hf : f ∈ files)
    {m : Finding} (hm : m ∈ f.findings) : m.Placed := by
  obtain ⟨ms, rfl⟩ := FileFindings.exists_members_of_read h hf
  obtain ⟨ns, rfl⟩ := FileFindings.exists_members_of_mem_findings hm
  exact ⟨Reading.natural_nonneg _, Reading.natural_nonneg _⟩

namespace Command

def Invocation.withColor (w : Invocation) (choice : ColorChoice) : Invocation :=
  { w with arguments := choice.argument :: w.arguments }

def Invocation.ReadsLegible (w : Invocation) (source : Text) : Prop :=
  ∀ text files events, w.results source = .ok text → FileFindings.read text = .ok (files, events) →
    ∀ f ∈ files, ∀ m ∈ f.findings, m.Legible

/-- The outcome with colours shows what the one without prints, and both end alike. -/
def Outcome.ShowsAs (full off : Outcome) : Prop :=
  unstyled full.output = off.output ∧ full.ending = off.ending

theorem Stop.outcome_showsAs (stop : Stop) (a b : Coloring) (s t : Text) :
    (stop.outcome a s).ShowsAs (stop.outcome b t) := by
  cases stop <;> exact ⟨rfl, rfl⟩

theorem reportOn_showsAs (s : Settings) (level : Level) {files : List FileFindings}
    (events : List Event) (half : Bool) (h : ∀ f ∈ files, ∀ m ∈ f.findings, m.Placed ∧ m.Legible) :
    (reportOn s .full level files events half).ShowsAs
      (reportOn s .off level files events half) := by
  have shown := unstyled_render_report .full .off s.policy h
  have counts := counts_report_coloring .full .off s.policy files
  unfold reportOn
  by_cases none : files = []
  · simp only [if_pos none]
    exact ⟨rfl, rfl⟩
  · simp only [if_neg none]
    cases full : (Run.report .full s.policy files).render .full with
    | error e =>
      cases off : (Run.report .off s.policy files).render .off with
      | error e' =>
        rw [full, off] at shown
        cases shown
        exact Stop.outcome_showsAs _ _ _ _ _
      | ok text =>
        rw [full, off] at shown
        cases shown
    | ok text =>
      cases off : (Run.report .off s.policy files).render .off with
      | error e =>
        rw [full, off] at shown
        cases shown
      | ok text' =>
        have same : half = true ∧ text ≠ [] ↔ half = true ∧ text' ≠ [] := by
          rw [Report.render_ne_nil_iff full, Report.render_ne_nil_iff off, Report.total,
            Report.total, counts]
        rw [full, off] at shown
        simp only [Except.map, Except.ok.injEq] at shown
        by_cases broken : half = true ∧ text ≠ []
        · simp only [if_pos broken, if_pos (same.mp broken)]
          exact Stop.outcome_showsAs _ _ _ _ _
        · simp only [if_neg broken, if_neg (mt same.mpr broken)]
          refine ⟨?_, ?_⟩
          · simpa [Console.printed, Console.shown, Console.ending] using shown
          · simp only [exitCodeOf, counts]

theorem report_showsAs (w : Invocation) (s : Settings) (level : Level)
    (h : w.ReadsLegible s.source) :
    (w.report s .full level).ShowsAs (w.report s .off level) := by
  unfold Invocation.report
  cases results : w.results s.source with
  | error stop => exact Stop.outcome_showsAs stop _ _ _ _
  | ok text =>
    cases read : FileFindings.read text with
    | error fault => cases fault <;> simp only [readFiles, read] <;> exact ⟨rfl, rfl⟩
    | ok r =>
      obtain ⟨files, events⟩ := r
      simp only [readFiles, read]
      exact reportOn_showsAs s level events _ fun f hf m hm =>
        ⟨placed_of_read read hf hm, h text files events results read f hf m hm⟩

theorem run_withColor (w : Invocation) (choice : ColorChoice) (c : Coloring) {s : Settings}
    (asked : Request.ofArguments w.arguments = .ok (.report s)) (unset : s.color = none)
    (allowed : s.noColor = false) :
    (w.withColor choice).run c =
      match w.level s with
      | .error stop => { stop.outcome .off [] with coloring := c }
      | .ok level => w.report s (choice.coloring w.environment w.isTerminal) level := by
  have request : Request.ofArguments (w.withColor choice).arguments =
      .ok (.report { s with color := some choice }) := ofArguments_color choice asked unset
  have coloring : Settings.coloring { s with color := some choice } w.environment w.isTerminal =
      choice.coloring w.environment w.isTerminal := by
    simp [Settings.coloring, Settings.choice, allowed]
  unfold Invocation.run
  rw [request]
  simp only [Invocation.withColor, coloring]
  rfl

/-- Colours change nothing but codes. The text printed for some files shows the same with colours
as without; and two runs of the command that ask for colours and for none, and agree in everything
else, end alike, and what the one prints shows as what the other prints. -/
theorem coloring_invisible :
    (∀ (policy : Policy) (files : List FileFindings),
      (∀ f ∈ files, ∀ m ∈ f.findings, m.Placed ∧ m.Legible) →
        (Run.render .full policy files).map unstyled =
          (Run.render .off policy files).map unstyled) ∧
    ∀ (w : Invocation) (a b : Coloring) (s : Settings),
      Request.ofArguments w.arguments = .ok (.report s) → s.color = none → s.noColor = false →
        w.ReadsLegible s.source →
          unstyled ((w.withColor .always).run a).output = ((w.withColor .never).run b).output ∧
            ((w.withColor .always).run a).ending.status =
              ((w.withColor .never).run b).ending.status := by
  refine ⟨fun policy files h => unstyled_render .full .off policy h, ?_⟩
  intro w a b s asked unset allowed legible
  have alike : ((w.withColor .always).run a).ShowsAs ((w.withColor .never).run b) := by
    rw [run_withColor w .always a asked unset allowed, run_withColor w .never b asked unset allowed]
    cases w.level s with
    | error stop => exact Stop.outcome_showsAs stop _ _ _ _
    | ok level => exact report_showsAs w s level legible
  exact ⟨alike.1, congrArg Ending.status alike.2⟩

theorem coloring_invisible_open_path :
    let odd : FileFindings :=
      { path := "\x1b[31m\na\x1b[".toList
        findings := [{ line := 3, column := 7, text := "4 5.".toList, rule := some "r".toList }]
        counts := ⟨0, 1, 0, 0⟩ }
    let results : Text := "[\x7b\"messages\":[\x7b\"message\":\"m\"\x7d]\x7d]".toList
    let w : Invocation :=
      { program := [], arguments := [], environment := {}, isTerminal := true
        input := results.map fun c => UInt8.ofNat c.toNat, openFile := fun _ => .missing }
    (Run.render .full .sum [odd]).map unstyled = (Run.render .off .sum [odd]).map unstyled ∧
      unstyled ((w.withColor .always).run .off).output = ((w.withColor .never).run .full).output ∧
      ((w.withColor .always).run .off).ending.status =
        ((w.withColor .never).run .full).ending.status := by
  intro odd results w
  refine ⟨coloring_invisible.1 .sum [odd] ?_,
    coloring_invisible.2 w .off .full {} rfl rfl rfl ?_⟩
  · intro f hf m hm
    obtain rfl := List.mem_singleton.mp hf
    obtain rfl := List.mem_singleton.mp hm
    refine ⟨⟨by decide, by decide⟩, ⟨by decide, ?_⟩, ?_⟩
    · intro r hr
      cases hr
      exact ⟨by decide, by decide⟩
    · intro r hr c hc
      cases hr
      cases hc
      decide
  · intro text files events read found f hf m hm
    have content : w.results ['-'] = .ok results := rfl
    have files_eq : FileFindings.read results =
        .ok ([{ path := [], findings := [{ text := ['m'] }] }], [.loaded 1]) := rfl
    rw [content] at read
    cases read
    rw [files_eq] at found
    cases found
    obtain rfl := List.mem_singleton.mp hf
    obtain rfl := List.mem_singleton.mp hm
    exact ⟨⟨by decide, nofun⟩, nofun⟩

end Command

end LintReport
