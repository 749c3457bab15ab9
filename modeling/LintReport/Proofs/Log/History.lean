/-
  LintReport.Proofs.Log.History — what is written through a logger that is set up again and again.

  A logger lives as long as its process, and every part of the process may set it up anew, each time
  for the stream of that moment. A set-up settles its level before it touches anything, so one that
  fails leaves the logger to the records that follow. One that does not takes all handlers away, its
  own handler is the only one, and so it is until the next.

  Proved:
  - `run_of_none_returns`: records and failing set-ups leave the logger as it is, and each record is
    written as the logger has it.
  - `reached_run`: only streams that were handed to the logger are written to.
  - `records_written_once`: behind a set-up each record is written once or not at all, by its level,
    to the stream of that set-up and no other.
-/

import LintReport.Log.Logger

namespace LintReport.Log

open Terminal (Coloring)

/-! ## Histories -/

/-- What happens to a logger: it is set up, or a record is emitted in the colours that are on. -/
inductive Action where
  | setUp (given : Option Level) (environment : Option Text) (stream : Nat)
  | emit (coloring : Coloring) (record : Record)
  deriving DecidableEq, Repr

namespace Action

def Returns : Action → Prop
  | setUp given environment _ => ∃ level, Logger.levelFor given environment = .ok level
  | emit _ _ => False

def stream? : Action → Option Nat
  | setUp _ _ stream => some stream
  | emit _ _ => none

def record? : Action → Option (Coloring × Record)
  | setUp _ _ _ => none
  | emit coloring record => some (coloring, record)

end Action

structure Logging where
  logger : Logger
  journal : List (Nat × Text) := []
  deriving DecidableEq, Repr

namespace Logging

def step (s : Logging) : Action → Logging
  | .setUp given environment stream =>
    { s with logger := ((Logger.configure given environment stream).run.run s.logger).2 }
  | .emit coloring record => { s with journal := s.journal ++ s.logger.emit coloring record }

def run (s : Logging) (history : List Action) : Logging := history.foldl step s

def on (s : Logging) (stream : Nat) : List Text :=
  (s.journal.filter (·.1 = stream)).map (·.2)

/-- The streams that are written to, or have been. -/
def reached (s : Logging) : List Nat := s.logger.handlers.map (·.stream) ++ s.journal.map (·.1)

/-- The entries that a set-up at a level makes of the records behind it: one for each whose level is
positive and not below it, with its site if the level is below that of plain information. -/
def entries (level : Level) (history : List Action) : List Text :=
  ((history.filterMap Action.record?).filter fun (_, r) => 0 < r.level ∧ level ≤ r.level).map
    fun (coloring, r) =>
      r.format coloring (if level < Level.info then .detailed else .brief) ++ ['\n']

theorem run_append (s : Logging) (xs ys : List Action) : s.run (xs ++ ys) = (s.run xs).run ys :=
  List.foldl_append

/-! ## Records -/

theorem logger_step_of_not_returns (s : Logging) {a : Action} (h : ¬ a.Returns) :
    (s.step a).logger = s.logger := by
  cases a with
  | setUp given environment stream =>
    rw [step, Logger.run_configure]
    cases settled : Logger.levelFor given environment with
    | ok level => exact absurd ⟨level, settled⟩ h
    | error e => rfl
  | emit coloring record => rfl

theorem journal_step (s : Logging) (a : Action) :
    (s.step a).journal =
      s.journal ++ a.record?.toList.flatMap fun (coloring, r) => s.logger.emit coloring r := by
  cases a with
  | setUp given environment stream => exact (List.append_nil _).symm
  | emit coloring record => simp [step, Action.record?]

/-- Records and failing set-ups leave the logger as it is, and each record is written as the logger
has it. -/
theorem run_of_none_returns (s : Logging) {history : List Action}
    (h : ∀ a ∈ history, ¬ a.Returns) :
    (s.run history).logger = s.logger ∧
      (s.run history).journal = s.journal ++
        (history.filterMap Action.record?).flatMap fun (coloring, r) =>
          s.logger.emit coloring r := by
  induction history generalizing s with
  | nil => exact ⟨rfl, (List.append_nil _).symm⟩
  | cons a history ih =>
    obtain ⟨logger, journal⟩ := ih (s.step a) fun b hb => h b (List.mem_cons_of_mem a hb)
    have same := logger_step_of_not_returns s (h a List.mem_cons_self)
    rw [same] at logger journal
    refine ⟨logger, journal.trans ?_⟩
    rw [journal_step, List.append_assoc, List.filterMap_cons]
    cases a.record? <;> simp

/-- A logger with one handler makes one entry of each record that it passes. -/
theorem flatMap_emit (level : Level) (stream : Nat) (history : List Action) :
    ((history.filterMap Action.record?).flatMap fun (coloring, r) =>
        (Logger.mk level [⟨stream, Layout.ofLevel level⟩]).emit coloring r) =
      (entries level history).map (stream, ·) := by
  have layout :
      Layout.ofLevel level = if level < Level.info then .detailed else .brief := by
    unfold Layout.ofLevel
    by_cases low : level < Level.info
    · rw [if_pos low, if_neg (Int.not_le.mpr low)]
    · rw [if_neg low, if_pos (Int.not_lt.mp low)]
  unfold entries
  induction history.filterMap Action.record? with
  | nil => rfl
  | cons x records ih =>
    obtain ⟨coloring, r⟩ := x
    rw [List.flatMap_cons, ih, List.filter_cons]
    by_cases passes : 0 < r.level ∧ level ≤ r.level
    · simp [Logger.emit, Logger.passes, passes, layout]
    · have dropped : Logger.passes ⟨level, [⟨stream, Layout.ofLevel level⟩]⟩ r = false := by
        simpa [Logger.passes] using passes
      simp [Logger.emit, dropped, passes]

/-! ## Streams -/

theorem reached_step {s : Logging} {a : Action} {stream : Nat} (h : stream ∈ (s.step a).reached) :
    stream ∈ s.reached ∨ a.stream? = some stream := by
  cases a with
  | setUp given environment own =>
    rw [step, Logger.run_configure] at h
    cases settled : Logger.levelFor given environment with
    | error e =>
      rw [settled] at h
      exact .inl h
    | ok level =>
      rw [settled] at h
      simp only [reached, Logger.setLevel, List.map_cons, List.map_nil, List.mem_append,
        List.mem_singleton] at h
      rcases h with rfl | h
      · exact .inr rfl
      · exact .inl (List.mem_append_right _ h)
  | emit coloring record =>
    refine .inl ?_
    simp only [step, reached, List.map_append, List.mem_append] at h ⊢
    rcases h with h | h | h
    · exact .inl h
    · exact .inr h
    · -- A record is written by the handlers there are.
      unfold Logger.emit at h
      split at h
      · simp only [List.map_map, List.mem_map] at h ⊢
        exact .inl h
      · exact absurd h List.not_mem_nil

/-- Only streams that were handed to the logger are written to. -/
theorem reached_run {s : Logging} {history : List Action} {stream : Nat}
    (h : stream ∈ (s.run history).reached) :
    stream ∈ s.reached ∨ ∃ a ∈ history, a.stream? = some stream := by
  induction history generalizing s with
  | nil => exact .inl h
  | cons a history ih =>
    rcases ih h with h | ⟨b, hb, own⟩
    · rcases reached_step h with h | own
      · exact .inl h
      · exact .inr ⟨a, List.mem_cons_self, own⟩
    · exact .inr ⟨b, List.mem_cons_of_mem a hb, own⟩

theorem on_eq_nil {s : Logging} {stream : Nat} (h : stream ∉ s.reached) : s.on stream = [] := by
  rw [on, List.map_eq_nil_iff, List.filter_eq_nil_iff]
  intro x hx same
  have own : x.1 = stream := by simpa using same
  exact h (List.mem_append_right _ (own ▸ List.mem_map_of_mem hx))

/-- Entries for one stream are got by that stream, and by no other. -/
theorem on_of_journal {s t : Logging} {stream : Nat} {es : List Text}
    (h : t.journal = s.journal ++ es.map (stream, ·)) (other : Nat) :
    t.on other = s.on other ++ if other = stream then es else [] := by
  rw [on, h, List.filter_append, List.map_append, on]
  congr 1
  by_cases same : other = stream
  · subst same
    simp [List.filter_map, Function.comp_def]
  · rw [if_neg same]
    simp [List.filter_map, Function.comp_def, Ne.symm same]

/-- Whatever handlers a logger has and whatever happened to it before, a set-up whose level can be
settled leaves it at that level with the one handler of its stream. Each record behind it, up to the
next that returns, is then written once or, by its level, not at all, to that stream and to no
other; a stream that is new to the logger gets nothing else. A set-up whose level cannot be settled
fails, and leaves the logger exactly as it was. -/
theorem records_written_once (logger : Logger) (before : List Action) (given : Option Level)
    (environment : Option Text) (stream : Nat) :
    let past := Logging.run ⟨logger, []⟩ before
    let call := (Logger.configure given environment stream).run.run past.logger
    (∀ level, Logger.levelFor given environment = .ok level →
      call = (.ok (), ⟨level, [⟨stream, Layout.ofLevel level⟩]⟩) ∧
      ∀ between : List Action, (∀ a ∈ between, ¬ a.Returns) →
        let s := Logging.run ⟨logger, []⟩ (before ++ .setUp given environment stream :: between)
        s.logger = ⟨level, [⟨stream, Layout.ofLevel level⟩]⟩ ∧
          s.journal = past.journal ++ (entries level between).map (stream, ·) ∧
          (∀ other, other ≠ stream → s.on other = past.on other) ∧
          ((∀ h ∈ logger.handlers, h.stream ≠ stream) →
            (∀ a ∈ before, a.stream? ≠ some stream) → s.on stream = entries level between)) ∧
      ∀ e, Logger.levelFor given environment = .error e → call = (.error e, past.logger) := by
  intro past call
  have called : call = _ := Logger.run_configure past.logger given environment stream
  refine ⟨fun level settled => ?_, fun e failed => ?_⟩
  · rw [settled] at called
    refine ⟨called, ?_⟩
    intro between none s
    have split : s = (past.step (.setUp given environment stream)).run between := run_append _ _ _
    have own : (past.step (.setUp given environment stream)).logger =
        ⟨level, [⟨stream, Layout.ofLevel level⟩]⟩ := congrArg Prod.snd called
    obtain ⟨logger', journal⟩ :=
      run_of_none_returns (past.step (.setUp given environment stream)) none
    rw [← split, own] at logger' journal
    have written : s.journal = past.journal ++ (entries level between).map (stream, ·) := by
      rw [journal, flatMap_emit]
      rfl
    refine ⟨logger', written, fun other apart => ?_, fun handlers calls => ?_⟩
    · rw [on_of_journal written, if_neg apart, List.append_nil]
    · have new : stream ∉ past.reached := by
        intro found
        rcases reached_run found with found | ⟨a, ha, used⟩
        · obtain ⟨h, hh, used⟩ := List.mem_map.mp (by simpa [reached] using found)
          exact handlers h hh used
        · exact calls a ha used
      rw [on_of_journal written, if_pos rfl, on_eq_nil new, List.nil_append]
  · rw [failed] at called
    exact called

/-- A logger with two handlers, set up for one stream and then for another, and a third set-up that
fails with a value that is no number. -/
theorem records_written_once_twice :
    let record (level : Level) (message : String) : Record :=
      ⟨level, message.toList, ⟨"f.py".toList, 7, "g".toList⟩⟩
    let logger : Logger := ⟨Level.warning, [⟨1, .brief⟩, ⟨1, .detailed⟩]⟩
    let before : List Action :=
      [.emit .off (record 30 "early"), .setUp (some 20) none 2, .emit .off (record 20 "first")]
    let between : List Action :=
      [.emit .off (record 5 "a"), .setUp none (some "²".toList) 4, .emit .off (record 4 "b"),
        .emit .full (record 50 "c")]
    let s := Logging.run ⟨logger, []⟩ (before ++ .setUp none (some " trace".toList) 3 :: between)
    s.logger = ⟨5, [⟨3, .detailed⟩]⟩ ∧ s.on 2 = ["[INFO] first\n".toList] ∧
      s.on 3 = ["[TRACE] [f.py:7] [g] a\n".toList,
        Terminal.Style.brightRed.paint .full "[CRITICAL] [f.py:7] [g] c".toList ++ ['\n']] ∧
      s.on 4 = [] := by
  intro record logger before between s
  have settled : Logger.levelFor none (some " trace".toList) = .ok 5 := rfl
  have none : ∀ a ∈ between, ¬ a.Returns := by
    intro a ha
    simp only [between, List.mem_cons, List.not_mem_nil, or_false] at ha
    rcases ha with rfl | rfl | rfl | rfl
    · exact id
    · rintro ⟨level, settled⟩
      cases settled
    · exact id
    · exact id
  obtain ⟨-, behind⟩ :=
    (records_written_once logger before Option.none (some " trace".toList) 3).1 5 settled
  obtain ⟨left, -, others, own⟩ := behind between none
  refine ⟨left, (others 2 (by decide)).trans (by decide), ?_,
    (others 4 (by decide)).trans (by decide)⟩
  exact (own (by decide) (by decide)).trans (by decide)

end Logging

end LintReport.Log
