/-
  LintReport.Command.Arguments — the arguments of the command and what they ask for.

  Options and operands come in any order; behind `--` all are operands. A long option may carry its
  value behind an equals sign, an option without it takes the next argument whatever that is, and
  short options may share one dash. A lone dash is an operand. When an option is given more than
  once its last value holds; values are looked at in the order in which their options first came.
  A name that no option has is answered with the names that come closest to it.

  The program only declares its options, their names and values. How arguments are split and looked
  at (`wordOf`, `parse`, `values`, `request`), what is said of those that are refused
  (`ArgumentError.message`, `recallsUsage`, `Flag.resembling`) and how the usage is laid out
  (`Help`) are rules of the option parser it is built on, a library outside of it.

  Proved:
  - `Request.ofArguments_nil`: without arguments the results are read from the standard input and
    the counts are added.
-/

import LintReport.Command.Choice
import LintReport.Text.Quoted
import LintReport.Text.Similarity

namespace LintReport.Command

inductive Flag where
  | mergePolicy
  | quiet
  | verbose
  | noColor
  | color
  | version
  | help
  deriving DecidableEq, Repr

namespace Flag

/-- The long names in alphabetical order. -/
def longNames : List (Text × Flag) :=
  [("--color".toList, color), ("--help".toList, help), ("--merge-policy".toList, mergePolicy),
    ("--no-color".toList, noColor), ("--quiet".toList, quiet), ("--verbose".toList, verbose),
    ("--version".toList, version)]

def shortNames : List (Char × Flag) := [('q', quiet), ('v', verbose), ('h', help)]

def takesValue : Flag → Bool
  | mergePolicy | color => true
  | _ => false

/-- Options that leave nothing to report. -/
def isEager : Flag → Bool
  | version | help => true
  | _ => false

def resembling (name : Text) : List Text := Text.closest 3 name (longNames.map (·.1))

end Flag

inductive ArgumentError where
  | noSuchOption (name : Text)
  | missingValue (name : Text)
  | unwantedValue (name : Text)
  | invalidValue (name : Text) (complaint : Text)
  | extra (operands : List Text)
  deriving DecidableEq, Repr

namespace ArgumentError

def proposal : List Text → Text
  | [] => []
  | [name] => " Did you mean ".toList ++ Text.Quoted.ofText name ++ ['?']
  | names =>
    " (Did you mean one of: ".toList ++ Text.join ", ".toList (names.map Text.Quoted.ofText)
      ++ "?)".toList

def message : ArgumentError → Text
  | noSuchOption name =>
    "No such option ".toList ++ Text.Quoted.ofText name ++ ['.']
      ++ proposal (Flag.resembling name)
  | missingValue name =>
    "Option ".toList ++ Text.Quoted.ofText name ++ " requires an argument.".toList
  | unwantedValue name =>
    "Option ".toList ++ Text.Quoted.ofText name ++ " does not take a value.".toList
  | invalidValue name complaint =>
    "Invalid value for ".toList ++ Text.Quoted.ofText name ++ ": ".toList ++ complaint
  | extra operands =>
    "Got unexpected extra argument".toList ++ (if operands.length = 1 then [] else ['s'])
      ++ " (".toList ++ Text.join [' '] operands ++ [')']

def recallsUsage : ArgumentError → Bool
  | missingValue _ | unwantedValue _ => false
  | _ => true

end ArgumentError

/-! ## Options and operands -/

/-- An option as it was given; the value is empty where none is taken. -/
structure Given where
  flag : Flag
  value : Text := []
  deriving DecidableEq, Repr

structure Parsed where
  given : List Given := []
  operands : List Text := []
  deriving DecidableEq, Repr

def parseShort : Text → Except ArgumentError (List Given)
  | [] => .ok []
  | c :: cs =>
    match Flag.shortNames.lookup c with
    | some flag => (parseShort cs).map (⟨flag, []⟩ :: ·)
    | none => .error (.noSuchOption ['-', c])

/-- An argument cut at its first equals sign. -/
def splitValue (arg : Text) : Text × Option Text :=
  match arg.dropWhile (· ≠ '=') with
  | [] => (arg, none)
  | _ :: value => (arg.takeWhile (· ≠ '='), some value)

def Parsed.prepend (gs : List Given) (p : Parsed) : Parsed := { p with given := gs ++ p.given }

def isOption (arg : Text) : Bool := arg.head? = some '-' && 1 < arg.length

/-- What one argument is: an operand, the end of the options, options that are complete, or an
option whose value is the next argument. -/
inductive Word where
  | operand
  | endOfOptions
  | options (given : List Given)
  | awaits (flag : Flag) (name : Text)
  deriving DecidableEq, Repr

def wordOf (arg : Text) : Except ArgumentError Word :=
  if arg = ['-', '-'] then .ok .endOfOptions
  else if !isOption arg then .ok .operand
  else
    let (name, value) := splitValue arg
    match Flag.longNames.lookup name with
    | none =>
      if ['-', '-'].isPrefixOf arg then .error (.noSuchOption name)
      else (parseShort (arg.drop 1)).map .options
    | some flag =>
      match flag.takesValue, value with
      | true, some v => .ok (.options [⟨flag, v⟩])
      | true, none => .ok (.awaits flag name)
      | false, some _ => .error (.unwantedValue name)
      | false, none => .ok (.options [⟨flag, []⟩])

def parse : List Text → Except ArgumentError Parsed
  | [] => .ok {}
  | arg :: rest =>
    match wordOf arg with
    | .error e => .error e
    | .ok .operand => (parse rest).map fun p => { p with operands := arg :: p.operands }
    | .ok .endOfOptions => .ok { operands := rest }
    | .ok (.options given) => (parse rest).map (·.prepend given)
    | .ok (.awaits flag name) =>
      match rest with
      | [] => .error (.missingValue name)
      | v :: rest => (parse rest).map (·.prepend [⟨flag, v⟩])

/-! ## Requests -/

structure Settings where
  policy : Policy := .sum
  verbose : Nat := 0
  quiet : Nat := 0
  noColor : Bool := false
  color : Option ColorChoice := none
  /-- Where the results are; a lone dash is the standard input. -/
  source : Text := ['-']
  deriving DecidableEq, Repr

inductive Request where
  | help
  | version
  | report (settings : Settings)
  deriving DecidableEq, Repr

namespace Parsed

def count (p : Parsed) (flag : Flag) : Nat := p.given.countP (·.flag = flag)

/-- The last value of an option. -/
def value? (p : Parsed) (flag : Flag) : Option Text :=
  (p.given.reverse.find? (·.flag = flag)).map (·.value)

def color? (p : Parsed) : Except ArgumentError (Option ColorChoice) :=
  match p.value? .color with
  | none => .ok none
  | some v =>
    match Choice.color.convert v with
    | .ok c => .ok (some c)
    | .error complaint => .error (.invalidValue "--color".toList complaint)

def policy (p : Parsed) : Except ArgumentError Policy :=
  match p.value? .mergePolicy with
  | none => .ok .sum
  | some v =>
    match Choice.policy.convert v with
    | .ok policy => .ok policy
    | .error complaint => .error (.invalidValue "--merge-policy".toList complaint)

def first? (p : Parsed) (kind : Flag → Bool) : Option Flag :=
  (p.given.map Given.flag).find? kind

/-- The values of the options, the first given looked at first. -/
def values (p : Parsed) : Except ArgumentError (Option ColorChoice × Policy) :=
  match p.first? Flag.takesValue with
  | some .color => do
    let color ← p.color?
    return (color, ← p.policy)
  | _ => do
    let policy ← p.policy
    return (← p.color?, policy)

/-- Help or version go before everything else, the first of them given before the other. -/
def request (p : Parsed) : Except ArgumentError Request :=
  match p.first? Flag.isEager with
  | some .help => .ok .help
  | some _ => .ok .version
  | none => do
    let (color, policy) ← p.values
    match p.operands with
    | _ :: extra@(_ :: _) => .error (.extra extra)
    | operands =>
      return .report
        { policy, color, verbose := p.count .verbose, quiet := p.count .quiet,
          noColor := 0 < p.count .noColor, source := operands.headD ['-'] }

end Parsed

def Request.ofArguments (args : List Text) : Except ArgumentError Request := do
  (← parse args).request

theorem Request.ofArguments_nil : Request.ofArguments [] = .ok (.report {}) := rfl

end LintReport.Command
