/-
  LintReport.Proofs.Terminal.Reset — texts painted in the full reset.

  The reset is a style of its own: the text is put between two full resets, and each line break of
  it as well. Whatever the text holds, even the beginning of a sequence just before a line break,
  the reset behind it is a sequence of its own, since no sequence goes on over ESC.

  A text that sets attributes and resets them one by one, with none left at its line breaks, is not
  changed by this: the resets find nothing to clear.

  Proved:
  - `exists_closing_of_break`: in a painted text the codes that reset the style stand before each
    line break.
  - `confined_paint_reset`: nothing set in a line of a text painted so is set in another, nor behind
    the text.
  - `Draws.cells_paint_reset`: a text that clears its lines by itself is shown as without the
    resets.
-/

import LintReport.Proofs.Terminal.Display
import LintReport.Proofs.Terminal.Paint

namespace LintReport.Terminal

open Text (Hit substitute)

def IsBreak (b : Text) : Prop := b = ['\n'] ∨ b = ['\r', '\n']

theorem exists_of_append_break {u t before after : Text} (hu : '\n' ∉ u)
    (h : u ++ t = before ++ '\n' :: after) :
    ∃ middle, before = u ++ middle ∧ t = middle ++ '\n' :: after := by
  rcases List.append_eq_append_iff.mp h with ⟨middle, eq, eq'⟩ | ⟨middle, eq, eq'⟩
  · exact ⟨middle, eq, eq'⟩
  · cases middle with
    | nil => exact ⟨[], by rw [eq, List.append_nil, List.append_nil], eq'.symm⟩
    | cons c middle =>
      obtain ⟨rfl, -⟩ := List.cons_eq_cons.mp eq'
      exact absurd (eq ▸ List.mem_append_right before List.mem_cons_self) hu

namespace Style

/-! ## Line breaks -/

theorem breakRule_eq_some {style : Style} {c : Char} {s : Text} {hit : Hit}
    (h : style.breakRule (c :: s) = some hit) :
    ∃ start, '\n' ∉ start ∧ (start = [] ∨ start = ['\r']) ∧
      hit.output = style.closing ++ start ++ '\n' :: style.opening := by
  unfold breakRule at h
  split at h
  · cases h
    exact ⟨['\r'], by decide, .inr rfl, by simp⟩
  · cases h
    exact ⟨[], by decide, .inl rfl, by simp⟩
  · cases h

theorem breakRule_of_ne (style : Style) {c : Char} (hreturn : c ≠ '\r') (hfeed : c ≠ '\n')
    (s : Text) : style.breakRule (c :: s) = none := by
  unfold breakRule
  split
  · rename_i e
    exact absurd (List.cons_eq_cons.mp e).1 hreturn
  · rename_i e
    exact absurd (List.cons_eq_cons.mp e).1 hfeed
  · rfl

theorem breakRule_lineFeed (style : Style) (s : Text) :
    style.breakRule ('\n' :: s) = some ⟨0, style.closing ++ ['\n'] ++ style.opening⟩ := by
  unfold breakRule
  split
  · rename_i e
    exact absurd (List.cons_eq_cons.mp e).1 (by decide)
  · rfl
  · rename_i none
    exact absurd rfl (none s)

theorem lineFeed_not_mem_codes (number : Attribute → Nat) (style : Style) :
    '\n' ∉ style.flatMap fun a => code (number a) := by
  intro h
  obtain ⟨a, -, ha⟩ := List.mem_flatMap.mp h
  exact lineFeed_not_mem_code _ ha

/-- A line break of a text that begins with one, taken out of the style, is this one or stands
behind it. -/
theorem break_here_or_behind (style : Style) {start t before after : Text} (plain : '\n' ∉ start)
    (h : style.closing ++ start ++ '\n' :: style.opening ++ t = before ++ '\n' :: after) :
    before = style.closing ++ start ∨
      ∃ middle, before = style.closing ++ start ++ '\n' :: (style.opening ++ middle) ∧
        t = middle ++ '\n' :: after := by
  have front : '\n' ∉ style.closing ++ start :=
    List.not_mem_append (lineFeed_not_mem_codes _ style) plain
  rw [List.append_assoc (style.closing ++ start)] at h
  obtain ⟨middle, rfl, behind⟩ := exists_of_append_break front h
  cases middle with
  | nil => exact .inl (List.append_nil _)
  | cons d middle =>
    rw [List.cons_append, List.cons_append] at behind
    obtain ⟨rfl, below⟩ := List.cons_eq_cons.mp behind
    obtain ⟨middle, rfl, later⟩ := exists_of_append_break (lineFeed_not_mem_codes _ style) below
    exact .inr ⟨middle, rfl, later⟩

/-- Where a text is taken out of a style at its line breaks, the codes that reset the style stand
before each line break. -/
theorem exists_closing_of_break (style : Style) {s tail before after : Text} (htail : '\n' ∉ tail)
    (h : substitute style.breakRule s ++ tail = before ++ '\n' :: after) :
    ∃ x start, (start = [] ∨ start = ['\r']) ∧ before = x ++ style.closing ++ start := by
  induction hn : s.length using Nat.strongRecOn generalizing s before with
  | ind n ih =>
    subst hn
    cases s with
    | nil =>
      rw [Text.substitute_nil, List.nil_append] at h
      exact absurd (h ▸ List.mem_append_right before List.mem_cons_self) htail
    | cons c s =>
      cases rule : style.breakRule (c :: s) with
      | none =>
        rw [Text.substitute_of_miss rule, List.cons_append] at h
        cases before with
        | nil =>
          obtain ⟨rfl, -⟩ := List.cons_eq_cons.mp h
          rw [breakRule_lineFeed] at rule
          cases rule
        | cons d before =>
          obtain ⟨rfl, later⟩ := List.cons_eq_cons.mp h
          obtain ⟨x, start, hstart, rfl⟩ := ih s.length (by simp) later rfl
          exact ⟨c :: x, start, hstart, rfl⟩
      | some hit =>
        obtain ⟨start, plain, hstart, output⟩ := breakRule_eq_some rule
        rw [Text.substitute_of_hit rule, output, List.append_assoc] at h
        rcases break_here_or_behind style plain h with rfl | ⟨middle, rfl, later⟩
        · exact ⟨[], start, hstart, rfl⟩
        · have shorter : (s.drop hit.more).length < (c :: s).length := by
            rw [List.length_drop, List.length_cons]
            omega
          obtain ⟨x, start', hstart', rfl⟩ := ih _ shorter later rfl
          exact ⟨style.closing ++ start ++ '\n' :: (style.opening ++ x), start', hstart', by simp⟩

theorem opening_reset : reset.opening = fullReset := by simp [reset, opening, fullReset]

theorem closing_reset : reset.closing = fullReset := by simp [reset, closing, fullReset]

/-- In a text painted in the full reset one stands before each line break. -/
theorem exists_fullReset_of_break {s before after : Text}
    (h : reset.paint .full s = before ++ '\n' :: after) :
    ∃ x start, (start = [] ∨ start = ['\r']) ∧ before = x ++ fullReset ++ start := by
  have plain : '\n' ∉ fullReset := lineFeed_not_mem_code 0
  rw [paint, opening_reset, List.append_assoc] at h
  obtain ⟨middle, rfl, behind⟩ := exists_of_append_break plain h
  rw [closing_reset] at behind
  obtain ⟨x, start, hstart, rfl⟩ := exists_closing_of_break reset plain behind
  rw [closing_reset]
  exact ⟨fullReset ++ x, start, hstart, by simp⟩

end Style

namespace Device

variable {σ : Type} (d : Device σ)

/-! ## Texts that keep what they set -/

/-- Whatever is set before the text, no attribute is set before and behind each of its line breaks,
nor behind it; so each line is shown as by itself, and so is what follows the text. -/
structure Confined (text : Text) : Prop where
  before {a : σ} {front b back : Text} : IsBreak b → text = front ++ (b ++ back) →
    d.state a front = d.clear
  behind {a : σ} {front b back : Text} : IsBreak b → text = front ++ (b ++ back) →
    d.state a (front ++ b) = d.clear
  line {a : σ} {front b back : Text} : IsBreak b → text = front ++ (b ++ back) →
    d.cells a text = d.cells a front ++ (b.map (·, d.clear) ++ d.cells d.clear back)
  ending (a : σ) : d.state a text = d.clear
  rest (a : σ) (more : Text) : d.cells a (text ++ more) = d.cells a text ++ d.cells d.clear more

theorem barrier_of_isBreak {b : Text} (h : IsBreak b) :
    esc ∉ b ∧ ∃ c r, b = c :: r ∧ Barrier c := by
  rcases h with rfl | rfl
  · exact ⟨by decide, _, _, rfl, barrier_lineFeed⟩
  · exact ⟨by decide, _, _, rfl, barrier_return⟩

theorem state_of_break (a : σ) {s front b back : Text} (hb : IsBreak b)
    (h : Style.reset.paint .full s = front ++ (b ++ back)) : d.state a front = d.clear := by
  rcases hb with rfl | rfl
  · obtain ⟨x, start, hstart, rfl⟩ := Style.exists_fullReset_of_break h
    rcases hstart with rfl | rfl
    · rw [List.append_nil]
      exact d.state_append_fullReset a x
    · rw [d.state_append_cons a barrier_return, d.state_of_plain _ (by decide)]
      exact d.state_append_fullReset a x
  · have h' : Style.reset.paint .full s = front ++ ['\r'] ++ '\n' :: back := by simpa using h
    obtain ⟨x, start, hstart, eq⟩ := Style.exists_fullReset_of_break h'
    rcases hstart with rfl | rfl
    · -- The reset does not end in a carriage return.
      have last : x ++ Style.fullReset ++ [] = x ++ [esc, '[', '0'] ++ ['m'] := by
        rw [List.append_nil, List.append_assoc]
        rfl
      rw [last] at eq
      exact absurd (List.append_inj' eq rfl).2 (by decide)
    · rw [(List.append_inj' eq rfl).1]
      exact d.state_append_fullReset a x

/-- Nothing set in a line of a text painted in the full reset is set in another, nor behind it. -/
theorem confined_paint_reset (s : Text) : d.Confined (Style.reset.paint .full s) := by
  have ends : ∃ t, Style.reset.paint .full s = t ++ Style.fullReset := by
    rw [Style.paint, Style.closing_reset]
    exact ⟨_, rfl⟩
  obtain ⟨t, ht⟩ := ends
  refine ⟨fun hb h => d.state_of_break _ hb h, ?_, ?_, ?_, ?_⟩
  · intro a front b back hb h
    obtain ⟨plain, c, r, rfl, barrier⟩ := barrier_of_isBreak hb
    rw [d.state_append_cons a barrier, d.state_of_break a hb h, d.state_of_plain _ plain]
  · intro a front b back hb h
    obtain ⟨plain, c, r, rfl, barrier⟩ := barrier_of_isBreak hb
    rw [h, List.cons_append, d.cells_append_cons a barrier, d.state_of_break a hb h,
      ← List.cons_append, d.cells_append_of_plain _ plain]
  · intro a
    rw [ht]
    exact d.state_append_fullReset a t
  · intro a more
    have alone := d.cells_append_fullReset a t []
    rw [List.append_nil] at alone
    rw [ht, List.append_assoc, d.cells_append_fullReset, alone, List.append_assoc]
    rfl

end Device

/-! ## Texts that clear their lines by themselves -/

/-- From the attributes set before it the text shows these cells and leaves those attributes. It
sets and resets them with numbered codes, none of them the full reset, and where it breaks a line
none is set. -/
inductive Draws {σ : Type} (d : Device σ) : σ → Text → σ → List (Char × σ) → Prop
  | nil (a : σ) : Draws d a [] a []
  | glyph {a b : σ} {c : Char} {s : Text} {cells : List (Char × σ)} (glyph : IsGlyph c)
    (rest : Draws d a s b cells) : Draws d a (c :: s) b ((c, a) :: cells)
  | feed {b : σ} {s : Text} {cells : List (Char × σ)} (rest : Draws d d.clear s b cells) :
    Draws d d.clear ('\n' :: s) b (('\n', d.clear) :: cells)
  | code {a b : σ} {n : Nat} {s : Text} {cells : List (Char × σ)} (partly : n ≠ 0)
    (rest : Draws d (d.apply (code n) a) s b cells) : Draws d a (code n ++ s) b cells

theorem eq_of_isSequence_prefix {q r s : Text} (hq : IsSequence q) (hr : IsSequence r)
    (h : q <+: r ++ s) : q = r := by
  rcases List.prefix_or_prefix_of_prefix h (List.prefix_append r s) with ⟨x, rfl⟩ | ⟨x, rfl⟩
  · rw [eq_nil_of_isSequence_append hq hr, List.append_nil]
  · rw [eq_nil_of_isSequence_append hr hq, List.append_nil]

theorem code_inj {m n : Nat} (h : code m = code n) : m = n := by
  have digits : Text.Numeral.ofNat m = Text.Numeral.ofNat n :=
    List.append_cancel_right (List.cons.inj (List.cons.inj h).2).2
  have value := congrArg (Nat.ofDigitChars 10 · 0) digits
  simpa [Text.Numeral.ofNat] using value

/-- A full reset begins with ESC, so none begins in a text without it. -/
theorem fullReset_infix_of_append {x s : Text} (h : esc ∉ x)
    (found : Style.fullReset <:+: x ++ s) : Style.fullReset <:+: s := by
  induction x with
  | nil => exact found
  | cons c x ih =>
    rcases List.infix_cons_iff.mp found with here | later
    · exact absurd ((List.cons_prefix_cons.mp here).1 ▸ List.mem_cons_self) h
    · exact ih (fun m => h (List.mem_cons_of_mem c m)) later

namespace Draws

variable {σ : Type} {d : Device σ} {a b c : σ} {s t : Text} {cells more : List (Char × σ)}

theorem append (h : Draws d a s b cells) (h' : Draws d b t c more) :
    Draws d a (s ++ t) c (cells ++ more) := by
  induction h with
  | nil a => exact h'
  | glyph glyph rest ih => exact .glyph glyph (ih h')
  | feed rest ih => exact .feed (ih h')
  | code partly rest ih =>
    rw [List.append_assoc]
    exact .code partly (ih h')

theorem of_glyphs (h : ∀ c ∈ s, IsGlyph c) (a : σ) : Draws d a s a (s.map (·, a)) := by
  induction s with
  | nil => exact .nil a
  | cons c s ih =>
    exact .glyph (h c List.mem_cons_self) (ih fun e he => h e (List.mem_cons_of_mem c he))

theorem lineFeed : Draws d d.clear ['\n'] d.clear [('\n', d.clear)] := .feed (.nil _)

/-- A chain of codes shows nothing. -/
theorem codes {number : Attribute → Nat} {style : Style} (h : ∀ x ∈ style, number x ≠ 0) (a : σ) :
    Draws d a (style.flatMap fun x => Terminal.code (number x))
      (style.foldl (fun a x => d.apply (Terminal.code (number x)) a) a) [] := by
  induction style generalizing a with
  | nil => exact .nil a
  | cons x style ih =>
    exact .code (h x List.mem_cons_self) (ih (fun y hy => h y (List.mem_cons_of_mem x hy)) _)

/-! ## Full resets -/

/-- There is no full reset in the text. -/
theorem not_infix_fullReset (h : Draws d a s b cells) : ¬ Style.fullReset <:+: s := by
  induction h with
  | nil a => exact fun found => absurd (List.infix_nil.mp found) (List.cons_ne_nil _ _)
  | @glyph a b c s cells glyph rest ih =>
    have plain : esc ∉ [c] := by simpa using glyph.1.symm
    exact fun found => ih (fullReset_infix_of_append plain found)
  | feed rest ih =>
    have plain : esc ∉ ['\n'] := by decide
    exact fun found => ih (fullReset_infix_of_append plain found)
  | @code a b n s cells partly rest ih =>
    intro found
    obtain ⟨x, cut, plain⟩ := exists_tail_of_isSequence (isSequence_code n)
    rw [cut, List.cons_append] at found
    rcases List.infix_cons_iff.mp found with here | later
    · rw [← List.cons_append, ← cut] at here
      have same := eq_of_isSequence_prefix (isSequence_code 0) (isSequence_code n) here
      exact partly (code_inj same).symm
    · exact ih (fullReset_infix_of_append plain later)

theorem paint_reset (h : Draws d a s b cells) :
    Style.reset.paint .full s =
      Style.fullReset ++ (substitute Style.reset.breakRule s ++ Style.fullReset) := by
  have none (t : Text) (ht : t <:+ s) : Style.fullReset.isPrefixOf t = false := by
    rw [← Bool.not_eq_true, List.isPrefixOf_iff_prefix]
    exact fun found => h.not_infix_fullReset (found.isInfix.trans ht.isInfix)
  have reopened : Style.reset.reopen s = s := by
    refine Text.substitute_eq_self fun t ht => ?_
    exact if_neg fun found => Bool.false_ne_true ((none t ht).symm.trans found.2)
  have kept : substitute Style.reset.resetRule s = s := by
    refine Text.substitute_eq_self fun t ht => ?_
    rw [Style.resetRule, none t ht]
    rfl
  rw [Style.paint, reopened, kept, Style.opening_reset, Style.closing_reset, List.append_assoc]

/-- The resets around its line breaks find nothing to clear. -/
theorem cells_substitute_append (h : Draws d a s b cells) (t : Text) :
    d.cells a (substitute Style.reset.breakRule s ++ t) = cells ++ d.cells b t := by
  induction h with
  | nil a => rfl
  | @glyph a b c s cells glyph rest ih =>
    rw [Text.substitute_of_miss (Style.breakRule_of_ne _ glyph.2.2 glyph.2.1 s), List.cons_append,
      d.cells_cons_of_ne _ glyph.1, ih]
    rfl
  | feed rest ih =>
    rw [Text.substitute_of_hit (Style.breakRule_lineFeed _ _), List.drop_zero,
      Style.opening_reset, Style.closing_reset]
    simp only [List.append_assoc]
    rw [d.cells_fullReset_append, List.singleton_append, d.cells_cons_of_ne _ (by decide),
      d.cells_fullReset_append, ih]
    rfl
  | @code a b n s cells partly rest ih =>
    have passed : ∀ e ∈ Terminal.code n, ∀ t, Style.reset.breakRule (e :: t) = none := by
      intro e he
      refine Style.breakRule_of_ne _ (fun same => ?_) (fun same => ?_)
      · exact Style.not_mem_code_of_barrier barrier_return (by decide) n (same ▸ he)
      · exact Style.lineFeed_not_mem_code n (same ▸ he)
    rw [Text.substitute_append passed, List.append_assoc,
      d.cells_sequence_append _ (isSequence_code n), ih]

/-- A text that clears its lines by itself is shown in the full reset as without it. -/
theorem cells_paint_reset (h : Draws d d.clear s b cells) (start : σ) :
    d.cells start (Style.reset.paint .full s) = cells := by
  have ending : d.cells b Style.fullReset = [] := by
    have alone := d.cells_fullReset_append b []
    rwa [List.append_nil] at alone
  rw [h.paint_reset, d.cells_fullReset_append, h.cells_substitute_append, ending, List.append_nil]

end Draws

end LintReport.Terminal
