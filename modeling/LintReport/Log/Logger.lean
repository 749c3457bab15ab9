/-
  LintReport.Log.Logger — where log records go and what they look like there.

  A logger has a level and handlers, each bound to a stream. A record is written once by each
  handler if its level is positive and not below the logger's. Setting the logger up leaves it with
  one handler, bound to the stream of that moment.

  An event whose message cannot be written has no record. The library that does the logging then
  writes a report of its own, with a trace of the program, which is not told here.

  Proved:
  - `run_configure`: a set-up that fails changes nothing; any other leaves the level it has settled
    and one handler.
  - `handlers_setUp`: after a set-up there is exactly one handler.
-/

import LintReport.Log.Event

namespace LintReport.Log

open Terminal (Coloring Style)

structure Record where
  level : Level
  message : Text
  site : Site
  deriving DecidableEq, Repr

def Event.record? (e : Event) : Option Record :=
  if e.isWritable then some ⟨e.level, e.message, e.site⟩ else none

/-- What is shown of a record: with or without its site. -/
inductive Layout where
  | brief
  | detailed
  deriving DecidableEq, Repr

namespace Record

def plain (layout : Layout) (r : Record) : Text :=
  let level := ['['] ++ Level.name r.level ++ "] ".toList
  match layout with
  | .brief => level ++ r.message
  | .detailed =>
    level ++ ['['] ++ r.site.file ++ [':'] ++ Text.Numeral.ofNat r.site.line ++ "] [".toList
      ++ r.site.function ++ "] ".toList ++ r.message

def style (level : Level) : Style :=
  if Level.critical ≤ level then Style.brightRed
  else if Level.error ≤ level then Style.red
  else if Level.warning ≤ level then Style.yellow
  else if Level.info ≤ level then Style.green
  else if Level.debug ≤ level then Style.gray
  else if Level.trace ≤ level then Style.blue
  else Style.dim ++ Style.red

def format (coloring : Coloring) (layout : Layout) (r : Record) : Text :=
  (style r.level).paint coloring (r.plain layout)

end Record

/-! ## Loggers -/

/-- A stream is known by a number. -/
structure Handler where
  stream : Nat
  layout : Layout
  deriving DecidableEq, Repr

structure Logger where
  level : Level
  handlers : List Handler
  deriving DecidableEq, Repr

/-- Below the level of plain information a reader wants to know the sites. -/
def Layout.ofLevel (level : Level) : Layout := if Level.info ≤ level then .brief else .detailed

namespace Logger

/-- The level of a set-up: the one given, else the one the environment asks for, else the greatest.
A level of zero from the environment counts as none. -/
def levelFor (given : Option Level) (environment : Option Text) :
    Except Text.Numeral.Error Level :=
  match given with
  | some level => .ok level
  | none =>
    match Level.ofEnvironment environment with
    | .ok (some level) => .ok (if level = 0 then Level.critical else level)
    | .ok none => .ok Level.critical
    | .error e => .error e

/-- The logger at a level, its earlier handlers removed and one bound to the stream added. -/
def setLevel (logger : Logger) (level : Level) (stream : Nat) : Logger :=
  { logger with level, handlers := [⟨stream, Layout.ofLevel level⟩] }

def addHandler (logger : Logger) (h : Handler) : Logger :=
  if h ∈ logger.handlers then logger else { logger with handlers := logger.handlers ++ [h] }

def removeHandler (logger : Logger) (h : Handler) : Logger :=
  { logger with handlers := logger.handlers.erase h }

/-- What a set-up does, in its order: it settles its level, sets it, removes one by one the handlers
that the logger has at that moment, and adds its own. -/
def configure (given : Option Level) (environment : Option Text) (stream : Nat) :
    ExceptT Text.Numeral.Error (StateM Logger) Unit := do
  let level ← liftExcept (levelFor given environment)
  modify fun logger => { logger with level }
  modify fun logger => logger.handlers.foldl removeHandler logger
  modify fun logger => logger.addHandler ⟨stream, Layout.ofLevel level⟩

def setUp (logger : Logger) (given : Option Level) (environment : Option Text) (stream : Nat) :
    Except Text.Numeral.Error Logger :=
  let (result, next) := (configure given environment stream).run.run logger
  result.map fun () => next

def passes (logger : Logger) (r : Record) : Bool := 0 < r.level && logger.level ≤ r.level

def emit (coloring : Coloring) (logger : Logger) (r : Record) : List (Nat × Text) :=
  if logger.passes r then
    logger.handlers.map fun h => (h.stream, r.format coloring h.layout ++ ['\n'])
  else []

def written (coloring : Coloring) (logger : Logger) (stream : Nat) (rs : List Record) : Text :=
  ((rs.flatMap (logger.emit coloring)).filter (·.1 = stream)).flatMap (·.2)

/-- However many handlers there are, removing them one by one leaves none. -/
theorem foldl_removeHandler (logger : Logger) :
    logger.handlers.foldl removeHandler logger = { logger with handlers := [] } := by
  have remove (hs : List Handler) (l : Logger) (same : l.handlers = hs) :
      hs.foldl removeHandler l = { l with handlers := [] } := by
    induction hs generalizing l with
    | nil => rw [List.foldl_nil, ← same]
    | cons h hs ih =>
      rw [List.foldl_cons, ih (l.removeHandler h) (by simp [removeHandler, same])]
      rfl
  exact remove logger.handlers logger rfl

/-- A set-up settles its level first: it fails with everything as it was, or not at all. -/
theorem run_configure (logger : Logger) (given : Option Level) (environment : Option Text)
    (stream : Nat) :
    (configure given environment stream).run.run logger =
      match levelFor given environment with
      | .ok level => (.ok (), logger.setLevel level stream)
      | .error e => (.error e, logger) := by
  unfold configure
  cases levelFor given environment with
  | error e => rfl
  | ok level =>
    have removed := foldl_removeHandler { logger with level }
    change (Except.ok (), addHandler (({ logger with level } : Logger).handlers.foldl removeHandler
      { logger with level }) _) = _
    rw [removed]
    rfl

theorem setUp_eq (logger : Logger) (given : Option Level) (environment : Option Text)
    (stream : Nat) :
    logger.setUp given environment stream =
      (levelFor given environment).map (logger.setLevel · stream) := by
  rw [setUp, run_configure]
  cases levelFor given environment <;> rfl

theorem handlers_setUp {logger next : Logger} {given : Option Level} {environment : Option Text}
    {stream : Nat} (h : logger.setUp given environment stream = .ok next) :
    next.handlers = [⟨stream, Layout.ofLevel next.level⟩] := by
  rw [setUp_eq] at h
  cases settled : levelFor given environment with
  | error e =>
    rw [settled] at h
    cases h
  | ok level =>
    rw [settled] at h
    cases h
    rfl

end Logger

end LintReport.Log
