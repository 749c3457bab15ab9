/-
  LintReport.Proofs.Command.Residue — control sequences that a run without colours writes.

  A run without colours writes the text of its report with the control sequences removed, in one
  pass. Paths, texts and rules come from the input and may hold anything, a sequence within another
  too; the inner one is removed, and the outer one is written.

  Proved:
  - `sequence_left_iff`: a run without colours writes a sequence exactly when its report interrupts
    one by others; and it writes no ESC at all when each ESC of the files begins a complete
    sequence.
  - `nested_sequence_left`: a message with a sequence inside another, and what is written of it.
-/

import LintReport.Proofs.Command.Status
import LintReport.Proofs.Report.Residue

namespace LintReport.Command

open Terminal

variable {w : Invocation} {s : Settings} {files : List FileFindings} {text : Text}

/-- What a run without colours writes is the text of its report without control sequences. -/
theorem output_of_render (h : w.Reads s files) (off : s.coloring w.environment w.isTerminal = .off)
    (paired : w.showsHalf s = false) (rendered : Run.render .off s.policy files = .ok text)
    (c : Coloring) : (w.run c).output = unstyled text := by
  rw [output_of_reads h off, rendered, paired]
  rfl

/-- A run without colours that writes something has read files and rendered them. -/
theorem exists_of_output_ne_nil (asked : Request.ofArguments w.arguments = .ok (.report s))
    (off : s.coloring w.environment w.isTerminal = .off) {c : Coloring}
    (written : (w.run c).output ≠ []) :
    w.showsHalf s = false ∧
      ∃ files text, w.Reads s files ∧ Run.render .off s.policy files = .ok text := by
  have starts : w.Starts s := by
    refine ⟨asked, ?_⟩
    cases settled : w.level s with
    | ok level => exact ⟨level, rfl⟩
    | error stop =>
      unfold Invocation.run at written
      rw [asked] at written
      simp only [settled] at written
      cases stop <;> exact absurd rfl written
  obtain ⟨level, run⟩ := run_of_starts starts c
  cases found : w.results s.source with
  | error stop =>
    rw [run, Invocation.report, found] at written
    cases stop <;> exact absurd rfl written
  | ok results =>
    cases read : FileFindings.read results with
    | error fault =>
      rw [run, Invocation.report, found] at written
      cases fault <;> simp [readFiles, read, Stop.outcome] at written
    | ok r =>
      obtain ⟨files, events⟩ := r
      have reads : w.Reads s files := ⟨starts, results, events, found, read⟩
      rw [output_of_reads reads off] at written
      cases rendered : Run.render .off s.policy files with
      | error e =>
        rw [rendered] at written
        exact absurd rfl written
      | ok text =>
        rw [rendered] at written
        cases half : w.showsHalf s with
        | false => exact ⟨rfl, files, text, reads, rendered⟩
        | true =>
          rw [half] at written
          exact absurd rfl written

/-- Without colours a run writes a control sequence exactly when the text of its report interrupts
one by others and can be written at all; only then would removing the sequences once more change
what is written. Where each ESC in the paths, texts and rules of the files begins a complete
sequence, no ESC is written. -/
theorem sequence_left_iff (asked : Request.ofArguments w.arguments = .ok (.report s))
    (off : s.coloring w.environment w.isTerminal = .off) (c : Coloring) :
    (Holds (w.run c).output ↔
      w.showsHalf s = false ∧
        ∃ files text, w.Reads s files ∧ Run.render .off s.policy files = .ok text ∧
          Interrupted text) ∧
    (unstyled (w.run c).output = (w.run c).output ↔ ¬ Holds (w.run c).output) ∧
    ((∀ files, w.Reads s files → ∀ f ∈ files, f.Whole) → esc ∉ (w.run c).output) := by
  refine ⟨⟨?_, ?_⟩, unstyled_eq_self_iff, ?_⟩
  · intro holds
    have written : (w.run c).output ≠ [] := by
      intro empty
      rw [empty] at holds
      exact absurd (esc_mem_of_holds holds) List.not_mem_nil
    obtain ⟨paired, files, text, reads, rendered⟩ := exists_of_output_ne_nil asked off written
    rw [output_of_render reads off paired rendered] at holds
    exact ⟨paired, files, text, reads, rendered, interrupted_of_holds holds⟩
  · intro read
    obtain ⟨paired, files, text, reads, rendered, interrupted⟩ := read
    rw [output_of_render reads off paired rendered]
    exact holds_of_interrupted interrupted
  · intro whole
    by_cases written : (w.run c).output = []
    · rw [written]
      exact List.not_mem_nil
    · obtain ⟨paired, files, text, reads, rendered⟩ := exists_of_output_ne_nil asked off written
      rw [output_of_render reads off paired rendered]
      exact whole_iff.mp (whole_render (whole files reads) rendered)

theorem sequence_left_iff_red :
    let results : Text := "[\x7b\"messages\":[\x7b\"message\":\"\\u001b[31mred\"\x7d],".toList
      ++ "\"warningCount\":1\x7d]".toList
    let w : Invocation :=
      { program := [], arguments := ["--no-color".toList], environment := {}, isTerminal := true
        input := results.map fun c => UInt8.ofNat c.toNat, openFile := fun _ => .missing }
    (¬ ∃ files text, w.Reads { noColor := true } files ∧
        Run.render .off .sum files = .ok text ∧ Interrupted text) ∧
      unstyled (w.run .full).output = (w.run .full).output ∧ esc ∉ (w.run .full).output := by
  intro results w
  have asked : Request.ofArguments w.arguments = .ok (.report { noColor := true }) := rfl
  obtain ⟨left, same, none⟩ := sequence_left_iff asked rfl .full
  have plain : esc ∉ (w.run .full).output := by
    refine none ?_
    intro files reads f hf
    obtain ⟨text, events, content, read⟩ := reads.read
    have content_eq : w.results ['-'] = .ok results := rfl
    have files_eq : FileFindings.read results =
        .ok ([⟨[], [{ text := code 31 ++ "red".toList }], ⟨0, 1, 0, 0⟩, .none⟩], [.loaded 1]) := rfl
    rw [content_eq] at content
    cases content
    rw [files_eq] at read
    cases read
    obtain rfl := List.mem_singleton.mp hf
    refine ⟨.nil, fun m hm => ?_, fun m hm r hr => ?_⟩
    · obtain rfl := List.mem_singleton.mp hm
      exact .sequence (isSequence_code 31) (.of_plain (by decide))
    · obtain rfl := List.mem_singleton.mp hm
      cases hr
  have kept : ¬ Holds (w.run .full).output := fun holds => plain (esc_mem_of_holds holds)
  exact ⟨fun interrupted => kept (left.mpr ⟨rfl, interrupted⟩), same.mpr kept, plain⟩

/-- A message with a sequence inside another. The inner one is removed, and the outer one is
written. -/
theorem nested_sequence_left :
    let message : Text := "x\\u001b\\u001b[m[31my".toList
    let results : Text := "[\x7b\"filePath\":\"a\",\"version\":\"lineOnly\",".toList
      ++ "\"messages\":[\x7b\"line\":1,\"column\":1,\"message\":\"".toList ++ message
      ++ "\"\x7d],\"warningCount\":1\x7d]".toList
    let w : Invocation :=
      { program := [], arguments := ["--no-color".toList], environment := {}, isTerminal := true
        input := results.map fun c => UInt8.ofNat c.toNat, openFile := fun _ => .missing }
    Request.ofArguments w.arguments = .ok (.report { noColor := true }) ∧
      Settings.coloring { noColor := true } w.environment w.isTerminal = .off ∧
      Holds (w.run .off).output ∧ unstyled (w.run .off).output ≠ (w.run .off).output := by
  intro message results w
  have written : (w.run .off).output =
      "\n\na\n  1:1  warning  x".toList
        ++ (code 31 ++ "y\n\n✖ 1 problem (0 errors, 1 warning)\n".toList) := by decide +kernel
  have holds : Holds (w.run .off).output := by
    rw [written]
    exact ⟨code 31, isSequence_code 31, List.infix_append' _ _ _⟩
  exact ⟨rfl, rfl, holds, fun same => unstyled_eq_self_iff.mp same holds⟩

end LintReport.Command
