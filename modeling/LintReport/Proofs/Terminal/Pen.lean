/-
  LintReport.Proofs.Terminal.Pen — the attributes that numbered codes set and reset.

  A sequence that ends in `m` selects attributes by their numbers, with semicolons between them.
  Text is bold, dim or underlined until the number for its reset is selected, and bold and dim share
  one; it stays in a colour until another or none is selected. Zero, or no number at all, resets
  everything.

  A style whose codes leave nothing set when it is closed shows a text in one pen, and nothing but
  the text; that is decided once for each style.

  Proved:
  - `selections_code`: a numbered code selects its number.
  - `Style.Inks.draws` / `Style.Inks.draws_line`: a line in a style is shown in its pen.
-/

import LintReport.Proofs.Terminal.Reset

namespace LintReport.Terminal

/-- The attributes characters are shown in; a colour is known by its number. -/
structure Pen where
  bold : Bool := false
  dim : Bool := false
  underline : Bool := false
  color : Option Nat := none
  deriving DecidableEq, Repr

namespace Pen

def plain : Pen := {}

def select (p : Pen) : Nat → Pen
  | 0 => plain
  | 1 => { p with bold := true }
  | 2 => { p with dim := true }
  | 4 => { p with underline := true }
  | 22 => { p with bold := false, dim := false }
  | 24 => { p with underline := false }
  | 39 => { p with color := none }
  | n => if 30 ≤ n ∧ n ≤ 37 ∨ 90 ≤ n ∧ n ≤ 97 then { p with color := some n } else p

/-- The numbers between semicolons, the first one begun with `n`. -/
def numbersFrom (n : Nat) : Text → List Nat
  | [] => [n]
  | c :: cs =>
    if c = ';' then n :: numbersFrom 0 cs
    else numbersFrom (10 * n + (c.toNat - '0'.toNat)) cs

/-- The numbers that a control sequence selects; none unless it ends in `m` and holds nothing else
than numbers. -/
def selections (q : Text) : List Nat :=
  let parameters := (q.drop 2).dropLast
  if q.getLast? = some 'm' ∧ parameters.all (fun c => c.isDigit || c = ';') then
    numbersFrom 0 parameters
  else []

def device : Device Pen where
  clear := plain
  apply q p := (selections q).foldl select p
  apply_fullReset _ := rfl

theorem numbersFrom_digits {digits : Text} (h : ∀ c ∈ digits, c.isDigit = true) (n : Nat) :
    numbersFrom n digits = [Nat.ofDigitChars 10 digits n] := by
  induction digits generalizing n with
  | nil => rfl
  | cons c cs ih =>
    have digit : c ≠ ';' := by
      rintro rfl
      exact absurd (h ';' List.mem_cons_self) (by decide)
    rw [numbersFrom, if_neg digit, ih fun d hd => h d (List.mem_cons_of_mem c hd),
      Nat.ofDigitChars_cons]

/-- A numbered code selects its number. -/
theorem selections_code (n : Nat) : selections (code n) = [n] := by
  have digits : ∀ c ∈ Text.Numeral.ofNat n, c.isDigit = true :=
    fun c hc => Text.Numeral.ofNat_isDigit hc
  have parameters : ((code n).drop 2).dropLast = Text.Numeral.ofNat n := by simp [code]
  have last : (code n).getLast? = some 'm' := by
    rw [show code n = (esc :: '[' :: Text.Numeral.ofNat n) ++ ['m'] by simp [code]]
    exact List.getLast?_concat
  have all : (Text.Numeral.ofNat n).all (fun c => c.isDigit || c = ';') = true :=
    List.all_eq_true.mpr fun c hc => by simp [digits c hc]
  rw [selections, parameters, if_pos ⟨last, all⟩, numbersFrom_digits digits]
  exact congrArg ([·]) (Nat.ofDigitChars_ten_toDigits)

theorem apply_code (n : Nat) (p : Pen) : device.apply (code n) p = p.select n := by
  show (selections (code n)).foldl select p = _
  rw [selections_code]
  rfl

/-- Bold and dim are reset together, and a colour stays. -/
example : device.cells plain (code 1 ++ code 31 ++ ['a'] ++ code 2 ++ code 22 ++ ['b']) =
    [('a', { bold := true, color := some 31 }), ('b', { color := some 31 })] := by decide

end Pen

namespace Style

open Pen (plain)

/-- A whole line in a style: its line feed is taken out of it. -/
theorem paint_line (style : Style) {s : Text} (hs : ∀ c ∈ s, IsGlyph c) :
    style.paint .full (s ++ ['\n']) =
      style.opening ++ s ++ style.closing ++ ['\n'] ++ (style.opening ++ style.closing) := by
  have noEsc : esc ∉ s ++ ['\n'] := List.not_mem_append (plain_of_glyphs hs).1 (by decide)
  have passed : ∀ c ∈ s, ∀ t, style.breakRule (c :: t) = none :=
    fun c hc => breakRule_of_ne style (hs c hc).2.2 (hs c hc).2.1
  have taken : Text.substitute style.breakRule ['\n'] =
      style.closing ++ ['\n'] ++ style.opening := by
    rw [Text.substitute_of_hit (breakRule_lineFeed style []), List.drop_zero,
      Text.substitute_nil, List.append_nil]
  simp only [paint, reopen_of_plain style noEsc, substitute_resetRule_of_plain style noEsc,
    Text.substitute_append passed, taken, List.append_assoc]

/-- The style shows a text in this pen, and its codes leave nothing set behind it. -/
structure Inks (style : Style) (p : Pen) : Prop where
  partly : ∀ a ∈ style, a.on ≠ 0 ∧ a.off ≠ 0
  opens : style.foldl (fun p a => p.select a.on) plain = p
  closes : style.foldl (fun p a => p.select a.off) p = plain

namespace Inks

variable {style : Style} {p : Pen} {s : Text}

theorem opening (h : style.Inks p) : Draws Pen.device plain style.opening p [] := by
  have codes := Draws.codes (d := Pen.device) (fun a ha => (h.partly a ha).1) plain
  simp only [Pen.apply_code, h.opens] at codes
  exact codes

theorem closing (h : style.Inks p) : Draws Pen.device p style.closing plain [] := by
  have codes := Draws.codes (d := Pen.device) (fun a ha => (h.partly a ha).2) p
  simp only [Pen.apply_code, h.closes] at codes
  exact codes

/-- A part of a line in a style is shown in its pen. -/
theorem draws (h : style.Inks p) (hs : ∀ c ∈ s, IsGlyph c) :
    Draws Pen.device plain (style.paint .full s) plain (s.map (·, p)) := by
  obtain ⟨noEsc, oneLine⟩ := plain_of_glyphs hs
  rw [paint_of_plain style noEsc oneLine, ← List.append_nil (s.map (·, p))]
  exact (h.opening.append (.of_glyphs hs p)).append h.closing

/-- A whole line in a style is shown in its pen, and its line feed in none. -/
theorem draws_line (h : style.Inks p) (hs : ∀ c ∈ s, IsGlyph c) :
    Draws Pen.device plain (style.paint .full (s ++ ['\n'])) plain
      (s.map (·, p) ++ [('\n', plain)]) := by
  have line := (h.opening.append (.of_glyphs hs p)).append h.closing
  have feed : Draws Pen.device plain ['\n'] plain [('\n', plain)] := .lineFeed
  have empty := h.opening.append h.closing
  rw [paint_line style hs]
  simpa using (line.append feed).append empty

end Inks

end Style

end LintReport.Terminal
