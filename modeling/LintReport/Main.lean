/-
  LintReport.Main — the command: it prints the report on the lint results it is given.
-/

import LintReport.Command.Run

namespace LintReport.Command

def lookUpVariable (name : String) : IO (Option Text) := do
  return (← IO.getEnv name).map (·.toList)

/-- What a system error says about a file. The number may come negated. -/
def refusal (number : UInt32) (details : String) : Opened :=
  match (if number < 0x80000000 then number else 0 - number).toNat with
  | 2 => .missing
  | 20 => .refused .notDirectory
  | 21 => .refused .isDirectory
  | 36 => .refused .nameTooLong
  | 13 => .refused (.other 13 "Permission denied".toList)
  | n => .refused (.other n details.toList)

def openPath (path : Path) : IO Opened := do
  if '\x00' ∈ path.write then return .nullInPath
  try
    return .bytes (← IO.FS.readBinFile (String.ofList path.write)).toList
  catch
    | .noFileOrDirectory _ number details | .inappropriateType _ number details
    | .permissionDenied _ number details | .invalidArgument _ number details =>
      return refusal number details
    | error => return refusal 5 (toString error)

def sourceOf (args : List Text) : Option Text :=
  match Request.ofArguments args with
  | .ok (.report s) => if s.source = ['-'] then none else some s.source
  | _ => none

def readsInput (args : List Text) : Bool :=
  match Request.ofArguments args with
  | .ok (.report s) => s.source = ['-']
  | _ => false

end LintReport.Command

open LintReport LintReport.Command in
def main (args : List String) : IO UInt32 := do
  let arguments := args.map (·.toList)
  let environment : Environment :=
    { forceColor := ← lookUpVariable "FORCE_COLOR"
      noColor := ← lookUpVariable "NO_COLOR"
      logLevel := ← lookUpVariable "LINTDIFFLINE_LOG_LEVEL" }
  let opened ←
    match sourceOf arguments with
    | some source => openPath (Path.ofText source)
    | none => pure .missing
  let input ←
    if readsInput arguments then pure (← (← IO.getStdin).readBinToEnd).toList else pure []
  let isTerminal ← (← IO.getStdout).isTty
  let invocation : Invocation :=
    { program := "lintdiffline".toList, arguments, environment, isTerminal, input
      openFile := fun _ => opened }
  let outcome := invocation.run .off
  IO.eprint (String.ofList outcome.errors)
  IO.print (String.ofList outcome.output)
  match outcome.ending with
  | .crash cause => IO.eprintln (String.ofList cause.message)
  | .exit _ => pure ()
  return outcome.ending.status.toUInt32
