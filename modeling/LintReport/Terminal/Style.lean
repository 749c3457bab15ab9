/-
  LintReport.Terminal.Style — texts shown in a style, or left plain.

  A style is a chain of display attributes, each with a code that sets it and one that resets it.
  A painted text stands between the codes that set the chain and those that reset it. Inside it
  three things would end the style too early or carry it too far, and are mended in this order: a
  code of the text that resets an attribute of the chain is followed by the one that sets it
  again; a piece between two full resets is taken out of the style; and so is a line break.

  The program chooses the styles. The codes and the mending (`paint` with all it uses) are those of
  the style builder it is given them by, a library outside of it.

  Proved:
  - `paint_off`: without colours every style leaves a text as it is.
  - `paint_of_plain`: a text without ESC and line feed is only put between the codes.
-/

import LintReport.Terminal.Sequence

namespace LintReport.Terminal

open Text (Rule Hit substitute replace)

inductive Coloring where
  | off
  | full
  deriving DecidableEq, Repr

structure Attribute where
  on : Nat
  off : Nat
  deriving DecidableEq, Repr

abbrev Style := List Attribute

namespace Style

def reset : Style := [⟨0, 0⟩]
def bold : Style := [⟨1, 22⟩]
def dim : Style := [⟨2, 22⟩]
def underline : Style := [⟨4, 24⟩]
def red : Style := [⟨31, 39⟩]
def green : Style := [⟨32, 39⟩]
def yellow : Style := [⟨33, 39⟩]
def blue : Style := [⟨34, 39⟩]
def gray : Style := [⟨90, 39⟩]
def brightRed : Style := [⟨91, 39⟩]

def opening (style : Style) : Text := style.flatMap fun a => code a.on

/-- The codes that reset the chain, in the same order. -/
def closing (style : Style) : Text := style.flatMap fun a => code a.off

/-- Sets each attribute again wherever the text resets it. -/
def reopen (style : Style) (s : Text) : Text :=
  style.foldl (fun s a => replace (code a.off) (code a.off ++ code a.on) s) s

def fullReset : Text := code 0

/-- How many characters there are up to the end of the next full reset on this line. -/
def toReset? : Text → Option Nat
  | [] => none
  | c :: cs =>
    if fullReset.isPrefixOf (c :: cs) then some fullReset.length
    else if c = '\n' then none
    else (toReset? cs).map (· + 1)

/-- Finds a full reset, the next one on the line and what is between them, to be taken out of the
style. -/
def resetRule (style : Style) : Rule := fun s =>
  if fullReset.isPrefixOf s then
    (toReset? (s.drop fullReset.length)).map fun n =>
      let length := fullReset.length + n
      ⟨length - 1, style.closing ++ s.take length ++ style.opening⟩
  else none

def breakRule (style : Style) : Rule
  | '\r' :: '\n' :: _ => some ⟨1, style.closing ++ ['\r', '\n'] ++ style.opening⟩
  | '\n' :: _ => some ⟨0, style.closing ++ ['\n'] ++ style.opening⟩
  | _ => none

def paint (coloring : Coloring) (style : Style) (s : Text) : Text :=
  match coloring with
  | .off => s
  | .full =>
    let s := substitute style.resetRule (style.reopen s)
    style.opening ++ substitute style.breakRule s ++ style.closing

@[simp] theorem paint_off (style : Style) (s : Text) : style.paint .off s = s := rfl

/-! ## Plain texts -/

theorem isPrefixOf_code {n : Nat} {s : Text} (h : esc ∉ s) : (code n).isPrefixOf s = false := by
  cases s with
  | nil => rfl
  | cons c cs =>
    have hc : c ≠ esc := fun e => h (e ▸ List.mem_cons_self)
    simp [code, List.isPrefixOf, Ne.symm hc]

theorem not_mem_of_suffix {c : Char} {s t : Text} (h : c ∉ s) (ht : t <:+ s) : c ∉ t :=
  fun m => h (ht.mem m)

theorem reopen_of_plain (style : Style) {s : Text} (h : esc ∉ s) : style.reopen s = s := by
  have one (a : Attribute) : replace (code a.off) (code a.off ++ code a.on) s = s := by
    refine Text.substitute_eq_self fun t ht => ?_
    simp [Text.literal, isPrefixOf_code (not_mem_of_suffix h ht)]
  rw [reopen]
  induction style with
  | nil => rfl
  | cons a style ih => rw [List.foldl_cons, one, ih]

theorem substitute_resetRule_of_plain (style : Style) {s : Text} (h : esc ∉ s) :
    substitute style.resetRule s = s := by
  refine Text.substitute_eq_self fun t ht => ?_
  simp [resetRule, fullReset, isPrefixOf_code (not_mem_of_suffix h ht)]

theorem substitute_breakRule_of_plain (style : Style) {s : Text} (h : '\n' ∉ s) :
    substitute style.breakRule s = s := by
  refine Text.substitute_eq_self fun t ht => ?_
  have hn := not_mem_of_suffix h ht
  unfold breakRule
  split <;> simp_all

/-- A text without ESC and line feed is only put between the codes. -/
theorem paint_of_plain (style : Style) {s : Text} (hesc : esc ∉ s) (hline : '\n' ∉ s) :
    style.paint .full s = style.opening ++ s ++ style.closing := by
  simp only [paint, reopen_of_plain style hesc, substitute_resetRule_of_plain style hesc,
    substitute_breakRule_of_plain style hline]

end Style

end LintReport.Terminal
