/-
  LintReport.Proofs.Terminal.Paint — a style shows nothing but itself.

  Painting puts codes around a text and mends the text inside in three passes. Each pass is a
  substitution that does not show: it finds a code or a line break, on which no sequence goes on,
  and puts nothing but codes beside it.

  Proved:
  - `unseen_literal` / `unseen_resetRule` / `unseen_breakRule`: the three passes do not show.
  - `unstyled_paint`: painted in any style, every text shows what it shows by itself.
  - `alike_paint`: a text that is ended is ended in every style, and shows the same.
-/

import LintReport.Proofs.Terminal.Seam
import LintReport.Terminal.Style

namespace LintReport.Terminal

open Text (Rule Hit substitute literal)

/-- What a search for a piece finds is the piece. -/
theorem literal_eq_some {piece replacement : Text} {c : Char} {s : Text} {hit : Hit}
    (h : literal piece replacement (c :: s) = some hit) :
    c :: s.take hit.more = piece ∧ hit.output = replacement := by
  unfold literal at h
  split at h
  · rename_i found
    obtain ⟨hne, hpre⟩ := found
    cases h
    refine ⟨?_, rfl⟩
    obtain ⟨t, ht⟩ := List.isPrefixOf_iff_prefix.mp hpre
    cases piece with
    | nil => exact absurd rfl hne
    | cons d piece =>
      obtain ⟨rfl, rfl⟩ := List.cons_eq_cons.mp ht
      simp
  · cases h

namespace Style

/-! ## Chains of codes -/

section

variable (number : Attribute → Nat) (style : Style)

theorem unstyled_codes_append (t : Text) :
    unstyled (style.flatMap (fun a => code (number a)) ++ t) = unstyled t := by
  induction style with
  | nil => rfl
  | cons a style ih => rw [List.flatMap_cons, List.append_assoc, unstyled_code_append, ih]

theorem fresh_codes_append {t : Text} (h : Fresh t) :
    Fresh (style.flatMap (fun a => code (number a)) ++ t) := by
  cases style with
  | nil => exact h
  | cons a style =>
    rw [List.flatMap_cons, List.append_assoc]
    exact fresh_code_append _ _

theorem ended_codes : Ended (style.flatMap fun a => code (number a)) := by
  induction style with
  | nil => exact ended_nil
  | cons a style ih => exact ended_append (ended_code _) ih

end

@[simp] theorem unstyled_opening_append (style : Style) (t : Text) :
    unstyled (style.opening ++ t) = unstyled t := unstyled_codes_append _ style t

@[simp] theorem unstyled_closing_append (style : Style) (t : Text) :
    unstyled (style.closing ++ t) = unstyled t := unstyled_codes_append _ style t

theorem fresh_closing (style : Style) : Fresh style.closing := by
  rw [← List.append_nil style.closing]
  exact fresh_codes_append _ style fresh_nil

theorem unstyled_opening (style : Style) : unstyled style.opening = [] := by
  simpa [unstyled] using unstyled_opening_append style []

theorem unstyled_closing (style : Style) : unstyled style.closing = [] := by
  simpa [unstyled] using unstyled_closing_append style []

/-! ## A piece taken out of the style -/

/-- The piece behind the codes that reset the chain and before those that set it again. -/
def takeOut (style : Style) (piece : Text) : Text := style.closing ++ piece ++ style.opening

theorem fresh_takeOut_append (style : Style) {piece : Text} (h : ∀ t, Fresh (piece ++ t))
    (t : Text) : Fresh (style.takeOut piece ++ t) := by
  rw [takeOut, List.append_assoc, List.append_assoc]
  exact fresh_codes_append _ style (h _)

theorem ended_takeOut (style : Style) {piece : Text} (h : Ended piece) :
    Ended (style.takeOut piece) :=
  ended_append (ended_append (ended_codes _ style) h) (ended_codes _ style)

theorem unstyled_takeOut (style : Style) {piece : Text} (h : Ended piece) :
    unstyled (style.takeOut piece) = unstyled piece := by
  rw [takeOut, List.append_assoc, unstyled_closing_append, h, unstyled_opening, List.append_nil]

/-- A rule that takes pieces which begin with a barrier and are ended out of the style does not
show. -/
theorem unseen_of_takeOut (style : Style) {rule : Rule}
    (h : ∀ {c : Char} {s : Text} {hit : Hit}, rule (c :: s) = some hit →
      Barrier c ∧ Ended (c :: s.take hit.more) ∧
        hit.output = style.takeOut (c :: s.take hit.more)) : Unseen rule where
  barrier found := (h found).1
  fresh found t := by
    obtain ⟨barrier, -, output⟩ := h found
    rw [output]
    exact fresh_takeOut_append style (fun _ => fresh_cons barrier _) t
  ended found := by
    obtain ⟨-, ended, output⟩ := h found
    exact ⟨output ▸ ended_takeOut style ended, ended⟩
  shown found := by
    obtain ⟨-, ended, output⟩ := h found
    rw [output, unstyled_takeOut style ended]

/-! ## The three passes -/

/-- Setting an attribute again behind the code that resets it does not show. -/
theorem unseen_literal (a : Attribute) :
    Unseen (literal (code a.off) (code a.off ++ code a.on)) where
  barrier found := by
    obtain ⟨rfl, -⟩ := List.cons_eq_cons.mp (literal_eq_some found).1
    exact barrier_esc
  fresh found t := by
    rw [(literal_eq_some found).2, List.append_assoc]
    exact fresh_code_append _ _
  ended found := by
    obtain ⟨piece, output⟩ := literal_eq_some found
    rw [piece, output]
    exact ⟨ended_append_code _ _, ended_code _⟩
  shown found := by
    obtain ⟨piece, output⟩ := literal_eq_some found
    rw [piece, output, ended_code, unstyled_code, unstyled_code, List.append_nil]

/-- What stands up to the end of the next full reset ends in one. -/
theorem take_of_toReset? {s : Text} {n : Nat} (h : toReset? s = some n) :
    ∃ x, s.take n = x ++ fullReset := by
  induction s generalizing n with
  | nil => cases h
  | cons c s ih =>
    rw [toReset?] at h
    split at h
    · rename_i here
      cases h
      exact ⟨[], (List.prefix_iff_eq_take.mp (List.isPrefixOf_iff_prefix.mp here)).symm⟩
    · split at h
      · cases h
      · obtain ⟨m, hm, rfl⟩ := Option.map_eq_some_iff.mp h
        obtain ⟨x, hx⟩ := ih hm
        exact ⟨c :: x, by rw [List.take_succ_cons, hx, List.cons_append]⟩

theorem resetRule_eq_some {style : Style} {s : Text} {hit : Hit}
    (h : style.resetRule s = some hit) :
    ∃ x, s.take (hit.more + 1) = fullReset ++ (x ++ fullReset) ∧
      hit.output = style.takeOut (fullReset ++ (x ++ fullReset)) := by
  unfold resetRule at h
  split at h
  · rename_i here
    obtain ⟨n, hn, rfl⟩ := Option.map_eq_some_iff.mp h
    obtain ⟨t, rfl⟩ := List.isPrefixOf_iff_prefix.mp here
    rw [List.drop_left] at hn
    obtain ⟨x, hx⟩ := take_of_toReset? hn
    have piece : (fullReset ++ t).take (fullReset.length + n) = fullReset ++ (x ++ fullReset) := by
      rw [List.take_length_add_append, hx]
    refine ⟨x, ?_, ?_⟩
    · rw [← piece]
      exact congrArg (List.take · _) (by simp [fullReset, code]; omega)
    · rw [← piece]
      rfl
  · cases h

/-- Taking a piece between two full resets out of the style does not show. -/
theorem unseen_resetRule (style : Style) : Unseen style.resetRule := by
  refine unseen_of_takeOut style fun {c s hit} found => ?_
  obtain ⟨x, piece, output⟩ := resetRule_eq_some found
  rw [List.take_succ_cons] at piece
  obtain ⟨rfl, -⟩ := List.cons_eq_cons.mp piece
  rw [piece]
  refine ⟨barrier_esc, ?_, output⟩
  rw [← List.append_assoc]
  exact ended_append_code _ 0

/-- Taking a line break out of the style does not show. -/
theorem unseen_breakRule (style : Style) : Unseen style.breakRule := by
  refine unseen_of_takeOut style fun {c s hit} found => ?_
  unfold breakRule at found
  split at found
  · rename_i e
    obtain ⟨rfl, rfl⟩ := List.cons_eq_cons.mp e
    cases found
    exact ⟨barrier_return, ended_concat barrier_lineFeed (by decide) ['\r'], rfl⟩
  · rename_i e
    obtain ⟨rfl, rfl⟩ := List.cons_eq_cons.mp e
    cases found
    exact ⟨barrier_lineFeed, ended_concat barrier_lineFeed (by decide) [], rfl⟩
  · cases found

/-! ## Painting -/

theorem unstyled_reopen (style : Style) (s : Text) : unstyled (style.reopen s) = unstyled s := by
  unfold reopen
  induction style generalizing s with
  | nil => rfl
  | cons a style ih =>
    rw [List.foldl_cons, ih]
    exact unstyled_substitute (unseen_literal a) s

/-- Painted in any style, every text shows what it shows by itself. -/
@[simp] theorem unstyled_paint (coloring : Coloring) (style : Style) (s : Text) :
    unstyled (style.paint coloring s) = unstyled s := by
  cases coloring with
  | off => rfl
  | full =>
    rw [paint, List.append_assoc, unstyled_opening_append, fresh_closing style, unstyled_closing,
      List.append_nil, unstyled_substitute (unseen_breakRule style),
      unstyled_substitute (unseen_resetRule style), unstyled_reopen]

/-- What is painted in some style ends in a code. -/
theorem paint_full_eq_append_code {style : Style} (h : style ≠ []) (s : Text) :
    ∃ t n, style.paint .full s = t ++ code n := by
  rcases List.eq_nil_or_concat style with rfl | ⟨init, a, rfl⟩
  · exact absurd rfl h
  · have last : closing (init.concat a) = closing init ++ code a.off := by
      rw [List.concat_eq_append, closing, List.flatMap_append, List.flatMap_singleton]
      rfl
    exact ⟨_, a.off, by rw [paint, last, ← List.append_assoc]⟩

theorem paint_ne_nil (coloring : Coloring) {style : Style} (h : style ≠ []) {s : Text}
    (hs : s ≠ []) : style.paint coloring s ≠ [] := by
  cases coloring with
  | off => exact hs
  | full =>
    obtain ⟨t, n, e⟩ := paint_full_eq_append_code h s
    rw [e]
    simp [code]

theorem ended_paint {coloring : Coloring} {style : Style} (h : style ≠ []) {s : Text}
    (hs : Ended s) : Ended (style.paint coloring s) := by
  cases coloring with
  | off => exact hs
  | full =>
    obtain ⟨t, n, e⟩ := paint_full_eq_append_code h s
    rw [e]
    exact ended_append_code t n

/-- With colours nothing is cut off behind a painted text: it ends in a code. -/
theorem trimRight_append_paint {style : Style} (h : style ≠ []) (t s : Text) :
    Text.trimRight (t ++ style.paint .full s) = t ++ style.paint .full s := by
  obtain ⟨x, n, e⟩ := paint_full_eq_append_code h s
  have last : t ++ (x ++ code n) = t ++ (x ++ esc :: '[' :: Text.Numeral.ofNat n) ++ ['m'] := by
    simp [code]
  rw [e, last]
  exact Text.trimRight_concat _ (by decide)

/-- A painted text is cut off nowhere if it is not cut off by itself. -/
theorem trimRight_paint {coloring : Coloring} {style : Style} (h : style ≠ []) {s : Text}
    (hs : Text.trimRight s = s) :
    Text.trimRight (style.paint coloring s) = style.paint coloring s := by
  cases coloring with
  | off => exact hs
  | full => exact trimRight_append_paint h [] s

/-- One text in the same style shows the same whatever the colours are. -/
theorem alike_paint (a b : Coloring) {style : Style} (h : style ≠ []) {s : Text} (hs : Ended s) :
    Alike (style.paint a s) (style.paint b s) :=
  ⟨ended_paint h hs, ended_paint h hs, by rw [unstyled_paint, unstyled_paint]⟩

@[simp] theorem visibleLength_paint (coloring : Coloring) (style : Style) (s : Text) :
    visibleLength (style.paint coloring s) = visibleLength s := by
  rw [visibleLength, unstyled_paint, visibleLength]

/-! ## Lines -/

/-- No barrier but ESC stands in a code. -/
theorem not_mem_code_of_barrier {c : Char} (h : Barrier c) (hc : c ≠ esc) (n : Nat) :
    c ∉ code n := by
  intro m
  rcases List.mem_cons.mp m with rfl | m
  · exact hc rfl
  · rcases List.mem_cons.mp m with rfl | m
    · exact absurd h (by decide)
    · rcases List.mem_append.mp m with m | m
      · have digit := isParameter_of_isDigit (Text.Numeral.ofNat_isDigit m)
        rw [h.1] at digit
        cases digit
      · rw [List.mem_singleton.mp m] at h
        exact absurd h (by decide)

theorem lineFeed_not_mem_code (n : Nat) : '\n' ∉ code n :=
  not_mem_code_of_barrier barrier_lineFeed (by decide) n

/-- A text without ESC that is one line is one in every style. -/
theorem lineFeed_not_mem_paint (coloring : Coloring) (style : Style) {s : Text} (hesc : esc ∉ s)
    (hline : '\n' ∉ s) : '\n' ∉ style.paint coloring s := by
  cases coloring with
  | off => exact hline
  | full =>
    rw [paint_of_plain style hesc hline]
    simp [opening, closing, lineFeed_not_mem_code, hline]

end Style

end LintReport.Terminal
