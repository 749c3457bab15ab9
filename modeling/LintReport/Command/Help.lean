/-
  LintReport.Command.Help — the texts that tell how the command is used.

  The words on each option are the program's; the option parser lays them out for 80 columns.
-/

import LintReport.Command.Arguments

namespace LintReport.Command.Help

def usage (program : Text) : Text :=
  "Usage: ".toList ++ program ++ " [OPTIONS] [RESULTS]\n".toList

def version : Text := "LintDiffLine, version 0.1.0\n".toList

def body : List String :=
  ["",
    "  Print a lint report that separates diagnostics on new lines from existing",
    "  ones.",
    "",
    "Options:",
    "  --merge-policy MERGEPOLICY  How new-line and existing-line counts combine in",
    "                              the summary: 'sum' adds them, 'first-nonzero'",
    "                              prefers the new-line count.  [default: sum]",
    "  -q, --quiet                 Decrease log verbosity. Repeat for even less.",
    "  -v, --verbose               Increase log verbosity. Repeat up to three times",
    "                              for more detail.",
    "  --no-color                  Disable color output (equivalent to",
    "                              --color=never).",
    "  --color COLORMODE           Color output: auto (default), always, or never.",
    "  --version                   Show the version and exit.",
    "  -h, --help                  Show this message and exit."]

def page (program : Text) : Text :=
  usage program ++ body.flatMap fun line => line.toList ++ ['\n']

def reminder (program : Text) : Text :=
  usage program ++ "Try '".toList ++ program ++ " --help' for help.\n\n".toList

end LintReport.Command.Help
