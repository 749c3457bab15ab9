/-
  LintReport.Proofs.Command.Complaints — what a run tells that fails.

  A run is stopped by the level of its log, by the input that it cannot open or decode, or by a text
  that is no results. Then it prints nothing, and the reason is one line on the error stream. The
  program puts no control sequences and no line feeds into it; only the path it has been given and
  the words of the system are told as they are.

  Proved:
  - `run_stopped`: a run that is stopped prints nothing and tells why.
  - `exists_failure`: a run that ends with the code of a failure has been stopped by one.
  - `inline_message`: the reason is on one line and has no sequences, if the path is so.
-/

import LintReport.Proofs.Command.Status
import Mathlib.Tactic.SplitIfs

namespace LintReport.Command

open Terminal (Coloring esc unstyled)
open Log (Event Level)

/-! ## What stops a run -/

/-- What a run with these settings has read when it begins its report, or what has stopped it. -/
def Invocation.prepared (w : Invocation) (s : Settings) :
    Except Stop (List FileFindings × List Event) :=
  match w.level s with
  | .error stop => .error stop
  | .ok _ =>
    match w.results s.source with
    | .error stop => .error stop
    | .ok text => readFiles text

theorem reads_of_prepared {w : Invocation} {s : Settings} {files : List FileFindings}
    {events : List Event} (asked : Request.ofArguments w.arguments = .ok (.report s))
    (h : w.prepared s = .ok (files, events)) : w.Reads s files := by
  unfold Invocation.prepared at h
  cases settled : w.level s with
  | error stop => simp only [settled, reduceCtorEq] at h
  | ok level =>
    cases results : w.results s.source with
    | error stop => simp only [settled, results, reduceCtorEq] at h
    | ok text =>
      simp only [settled, results] at h
      exact ⟨⟨asked, level, settled⟩, text, events, results, readFiles_eq_ok_iff.mp h⟩

/-- A run that is stopped prints nothing, and tells why in the colours it has chosen or would have
chosen. -/
theorem run_stopped {w : Invocation} {s : Settings} {stop : Stop}
    (asked : Request.ofArguments w.arguments = .ok (.report s))
    (stopped : w.prepared s = .error stop) (c : Coloring) :
    (w.run c).ending = stop.ending ∧ (w.run c).output = [] ∧
      (w.run c).errors = (stop.outcome (s.coloring w.environment w.isTerminal) []).errors := by
  unfold Invocation.prepared at stopped
  unfold Invocation.run
  rw [asked]
  cases settled : w.level s with
  | error early =>
    simp only [settled, Except.error.injEq] at stopped ⊢
    subst stopped
    -- what stops a run before it has colours is told in the same words with and without them
    rcases level_eq_error_iff.mp settled with ⟨e, -, rfl⟩ | ⟨-, -, -, rfl⟩
    · exact ⟨rfl, rfl, rfl⟩
    · cases s.coloring w.environment w.isTerminal <;> exact ⟨rfl, rfl, rfl⟩
  | ok level =>
    simp only [settled, Invocation.report] at stopped ⊢
    cases results : w.results s.source with
    | error late =>
      simp only [results, Except.error.injEq] at stopped
      subst stopped
      cases late <;> exact ⟨rfl, rfl, rfl⟩
    | ok text =>
      simp only [results] at stopped
      simp only [stopped, and_true]
      cases stop <;> exact ⟨rfl, rfl⟩

/-- A run that ends with the code of a failure has been stopped by one. -/
theorem exists_failure {w : Invocation} {code : ExitCode} {c : Coloring}
    (failed : code.code ∈ [64, 65, 66, 74]) (h : (w.run c).ending = .exit code) :
    ∃ s f, Request.ofArguments w.arguments = .ok (.report s) ∧
      w.prepared s = .error (.failure f) ∧ f.exitCode = code := by
  -- a run that is not stopped by a failure ends with a code that is none of these, or breaks off
  have other {code' : ExitCode} (ends : (w.run c).ending = .exit code')
      (fine : code'.code ∉ [64, 65, 66, 74]) : False := by
    cases h.symm.trans ends
    exact fine failed
  cases asked : Request.ofArguments w.arguments with
  | error e => exact (other (ending_of_fails (.arguments asked) c) (by decide)).elim
  | ok r =>
    cases r with
    | help => exact (other (by unfold Invocation.run; rw [asked]) (by decide)).elim
    | version => exact (other (by unfold Invocation.run; rw [asked]) (by decide)).elim
    | report s =>
      cases prepared : w.prepared s with
      | error stop =>
        have ends := (run_stopped asked prepared c).1
        cases stop with
        | failure f =>
          cases h.symm.trans ends
          exact ⟨s, f, rfl, prepared, rfl⟩
        | crash cause => cases h.symm.trans ends
      | ok r =>
        have ends := ending_of_reads (reads_of_prepared asked prepared) c
        simp only [endingOn] at ends
        split at ends
        · cases h.symm.trans ends
        · split at ends
          · cases h.symm.trans ends
          · refine (other ends ?_).elim
            unfold exitCodeOf
            split <;> decide

/-! ## The line that tells why -/

def Inline (t : Text) : Prop := ∀ c ∈ t, c ≠ esc ∧ c ≠ '\n'

instance (t : Text) : Decidable (Inline t) := List.decidableBAll _ t

theorem Inline.append {s t : Text} (hs : Inline s) (ht : Inline t) : Inline (s ++ t) :=
  List.forall_mem_append.mpr ⟨hs, ht⟩

theorem Inline.esc_not_mem {t : Text} (h : Inline t) : esc ∉ t := fun mem => (h esc mem).1 rfl

theorem inline_ofNat (n : Nat) : Inline (Text.Numeral.ofNat n) := by
  intro c hc
  have digit := Text.Numeral.ofNat_isDigit hc
  constructor
  · rintro rfl
    exact absurd digit (by decide)
  · rintro rfl
    exact absurd digit (by decide)

theorem inline_complaint (results : Text) (cause : Json.Cause) (position : Nat) :
    Inline (Reading.complaint results (.malformed cause position)) := by
  have message : Inline cause.message := by cases cause <;> decide
  have described : Inline (Json.describe results cause position) :=
    ((((((message.append (by decide)).append (inline_ofNat _)).append (by decide)).append
      (inline_ofNat _)).append (by decide)).append (inline_ofNat _)).append (by decide)
  exact Inline.append (by decide) described

theorem mem_of_mem_pieces {s p : Text} {c : Char} (hp : p ∈ Path.pieces s) (hc : c ∈ p) :
    c ∈ s := by
  induction s generalizing p with
  | nil =>
    obtain rfl := List.mem_singleton.mp hp
    exact hc
  | cons d s ih =>
    unfold Path.pieces at hp
    split at hp
    · rcases List.mem_cons.mp hp with rfl | hp
      · cases hc
      · exact List.mem_cons_of_mem d (ih hp hc)
    · split at hp
      · obtain rfl := List.mem_singleton.mp hp
        exact List.mem_singleton.mp hc ▸ List.mem_cons_self
      · rename_i q ps found
        rcases List.mem_cons.mp hp with rfl | hp
        · rcases List.mem_cons.mp hc with rfl | hc
          · exact List.mem_cons_self
          · exact List.mem_cons_of_mem d (ih (found ▸ List.mem_cons_self) hc)
        · exact List.mem_cons_of_mem d (ih (found ▸ List.mem_cons_of_mem q hp) hc)

/-- The characters of a path are those it was read from, slashes and dots. -/
theorem mem_write_ofText {source : Text} {c : Char} (h : c ∈ (Path.ofText source).write) :
    c ∈ source ∨ c = '/' ∨ c = '.' := by
  unfold Path.write at h
  split at h
  · exact .inr (.inr (List.mem_singleton.mp h))
  · rcases List.mem_append.mp h with root | rest
    · have slashes : c ∈ ['/', '/'] := by
        unfold Path.ofText Path.rootOf at root
        split at root
        · cases root
        · exact root
        · exact List.mem_cons_of_mem _ root
      simp at slashes
      exact .inr (.inl slashes)
    · rcases Text.mem_join rest with slash | ⟨p, hp, hc⟩
      · exact .inr (.inl (List.mem_singleton.mp slash))
      · exact .inl (mem_of_mem_pieces (List.mem_filter.mp hp).1 hc)

theorem inline_path {source : Text} (h : Inline source) : Inline (Path.ofText source).write := by
  intro c hc
  rcases mem_write_ofText hc with mem | rfl | rfl
  · exact h c mem
  · decide
  · decide

theorem inline_hex (width code : Nat) : Inline (Text.Quoted.hex width code) := by
  intro c hc
  obtain ⟨i, -, rfl⟩ := List.mem_map.mp hc
  have digits : ∀ d < 16, Nat.digitChar d ≠ esc ∧ Nat.digitChar d ≠ '\n' := by decide
  exact digits _ (Nat.mod_lt _ (by decide))

theorem inline_escapeCode (code : Nat) : Inline (Text.Quoted.escapeCode code) := by
  unfold Text.Quoted.escapeCode
  (repeat' split) <;> exact Inline.append (s := ['\\', _]) (by decide) (inline_hex _ code)

theorem inline_writeSymbol {quote : Char} (plain : Inline [quote]) (symbol : Text.Symbol) :
    Inline (Text.Quoted.writeSymbol quote symbol) := by
  cases symbol with
  | half code => exact inline_escapeCode code
  | char c =>
    simp only [Text.Quoted.writeSymbol]
    split_ifs with special lineFeed return_ tab printable
    · rcases special with rfl | rfl
      · exact Inline.append (s := ['\\']) (by decide) plain
      · decide
    · decide
    · decide
    · decide
    · intro d hd
      obtain rfl := List.mem_singleton.mp hd
      refine ⟨?_, lineFeed⟩
      rintro rfl
      exact absurd printable (by decide)
    · exact inline_escapeCode _

/-- A quoted text is on one line, whatever it holds. -/
theorem inline_quoted (t : Text) : Inline (Text.Quoted.ofText t) := by
  have quote (s : List Text.Symbol) : Inline [Text.Quoted.quoteOf s] := by
    unfold Text.Quoted.quoteOf
    split <;> decide
  refine Inline.append (quote _) (Inline.append ?_ (quote _))
  intro c hc
  obtain ⟨symbol, -, mem⟩ := List.mem_flatMap.mp hc
  exact inline_writeSymbol (quote _) symbol c mem

theorem inline_openError {path : Text} {e : OpenError} (h : Inline e.text) :
    Inline (e.message path) :=
  (((((Inline.append (by decide) (inline_ofNat _)).append (by decide)).append h).append
    (by decide)).append (inline_quoted path))

/-- The reason for which a run fails is on one line and has no control sequences where the path it
has been given is so, and what the system says if it refuses to open it. -/
theorem inline_message {w : Invocation} {s : Settings} {f : Failure}
    (stopped : w.prepared s = .error (.failure f)) (source : Inline s.source)
    (system : ∀ e, w.openFile (Path.ofText s.source) = .refused e → Inline e.text) :
    Inline f.message := by
  have path := inline_path source
  unfold Invocation.prepared at stopped
  cases settled : w.level s with
  | error early =>
    simp only [settled, Except.error.injEq] at stopped
    subst stopped
    rcases level_eq_error_iff.mp settled with ⟨e, -, crash⟩ | ⟨-, -, -, conflict⟩
    · cases crash
    · cases conflict
      decide
  | ok level =>
    cases results : w.results s.source with
    | error late =>
      simp only [settled, results, Except.error.injEq] at stopped
      subst stopped
      cases unread_of_results results with
      | notUtf8 => exact Inline.append (by decide) path
      | missing => exact Inline.append (by decide) path
      | refused _ opened =>
        exact ((Inline.append (by decide) path).append (by decide)).append
          (inline_openError (system _ opened))
    | ok text =>
      simp only [settled, results] at stopped
      rcases readFiles_eq_error_iff.mp stopped with ⟨cause, position, -, told⟩ | ⟨e, -, crash⟩
      · cases told
        exact inline_complaint text cause position
      · cases crash

def Failure.line (f : Failure) : Text := "Error: ".toList ++ f.message ++ ['\n']

end LintReport.Command
