/-
  LintReport.Proofs.Report.Verbatim — how much of its text a finding keeps in a table.

  A text may hold line feeds, and its finding then takes several lines of the table. Each of these is
  searched for a place. On the first one the place of the finding is found, which stands before the
  text. But on a later one the first two numbers are found that the text itself has there, or the
  rule behind it, and they are joined as if they were a place.

  Proved:
  - `table_eq_rows`: a table is the rows of its findings, each with its own place joined on the first
    line and whatever looks like one joined on each later line.
  - `prefix_joinLaterPlaces_append_iff`: which texts come through that as they are.
  - `text_kept_iff`: where a text ends in no blank, its row shows it as it is exactly when none of its
    later lines holds two numbers with only blanks between them.
  - `numbers_joined_in_text`: a text of two lines that its table does not hold.
-/

import LintReport.Proofs.Report.Columns
import LintReport.Proofs.Text.Lines

namespace LintReport

open Terminal (esc visibleLength)
open Text (isBlank lines unlines trimRight)

namespace Text

/-- The last line of a text goes on with the first of what follows. -/
theorem lines_append_of_lines {s last : Text} {ls : List Text} (h : lines s = ls ++ [last])
    (t : Text) : lines (s ++ t) = ls ++ (last ++ (lines t).headD []) :: (lines t).tail := by
  have joined := lines_append s t
  simpa only [h, List.dropLast_concat, List.getLast_concat] using joined

theorem lines_append_of_not_mem {s : Text} (h : '\n' ∉ s) (t : Text) :
    lines (s ++ t) = (s ++ (lines t).headD []) :: (lines t).tail :=
  @lines_append_of_lines s s [] (lines_of_not_mem h) t

theorem unlines_append_cons (s l : Text) (ls : List Text) :
    unlines ((s ++ l) :: ls) = s ++ unlines (l :: ls) := by
  cases ls with
  | nil => rfl
  | cons k ls => simp [unlines, join]

theorem suffix_unlines_concat (ls : List Text) (last : Text) : last <:+ unlines (ls ++ [last]) := by
  induction ls with
  | nil => exact List.suffix_rfl
  | cons l ls ih =>
    rw [List.cons_append, unlines_cons l (by simp)]
    exact ih.trans ((List.suffix_cons _ _).trans (List.suffix_append _ _))

end Text

namespace Section

/-! ## Rows -/

/-- The first line as it is, and on each later line the first two numbers joined. -/
def joinLaterPlaces (s : Text) : Text :=
  unlines ((lines s).headD [] :: (lines s).tail.map (joinPlace .off))

def placeAndLabel (ws : List Nat) (m : Finding) : Text :=
  indent ws m ++ (lineNumber m ++ ':' :: (columnNumber m ++ (afterPlace ws m ++ labelName m)))

def shownRow (ws : List Nat) (m : Finding) : Text :=
  placeAndLabel ws m ++ joinLaterPlaces (trimRight (message ws m ++ ruleName m))

theorem lineFeed_not_mem_filler {ws : List Nat} {j : Nat} {cell : Text} :
    '\n' ∉ filler ws j cell :=
  fun mem => absurd (eq_space_of_mem_filler mem) (by decide)

theorem lineFeed_not_mem_separator : '\n' ∉ separator := by decide

/-- The place of a finding stands on the first line of its row, before any other number. -/
theorem row_eq_shownRow (ws : List Nat) {m : Finding} (placed : m.Placed) :
    unlines ((lines (trimRight (Table.line visibleLength ws aligns separator (row .off m)))).map
        (joinPlace .off)) = shownRow ws m := by
  let front := indent ws m ++ (lineNumber m ++ (separator ++ (columnNumber m
    ++ (afterPlace ws m ++ labelName m))))
  let body := trimRight (message ws m ++ ruleName m)
  have whole : trimRight (Table.line visibleLength ws aligns separator (row .off m)) =
      front ++ body := by
    rw [trimRight_line, afterNumbers, ruleCell_off]
    simp only [front, List.append_assoc]
    rfl
  have noFeed : '\n' ∉ front := by
    have line : '\n' ∉ lineNumber m := (ofInt_plain m.line).2
    have column : '\n' ∉ columnNumber m := (ofInt_plain m.column).2
    have label : '\n' ∉ labelName m := (labelName_plain (Label.ofFinding m)).2
    simp [front, indent, afterPlace, lineFeed_not_mem_filler, lineFeed_not_mem_separator, line,
      column, label]
  have joined (l : Text) : joinPlace .off (front ++ l) = placeAndLabel ws m ++ l := by
    have rest : Text.StopsAt Text.isDecimal (afterPlace ws m ++ (labelName m ++ l)) :=
      Text.stopsAt_of_run (isRun_afterPlace ws m) (fun _ => Text.not_isDecimal_of_isBlank) _
    have line : Text.IsRun Text.isDecimal (lineNumber m) := isRun_ofInt placed.line
    have column : Text.IsRun Text.isDecimal (columnNumber m) := isRun_ofInt placed.column
    have place :=
      joinPlace_eq .off (@not_isDecimal_indent ws m) line isRun_separator column rest
    simpa [front, placeAndLabel] using place
  rw [whole, Text.lines_append_of_not_mem noFeed, List.map_cons, joined, Text.unlines_append_cons]
  rfl

/-- A table is the rows of its findings. -/
theorem table_eq_rows {ms : List Finding} (placed : ∀ m ∈ ms, m.Placed) :
    table .off ms = unlines (ms.map (shownRow (widths ms))) := by
  by_cases none : ms = []
  · subst none
    rfl
  · let trimmed (m : Finding) : Text :=
      trimRight (Table.line visibleLength (widths ms) aligns separator (row .off m))
    have grid : lines (Table.render visibleLength aligns separator (ms.map (row .off))) =
        ms.flatMap fun m => lines (trimmed m) := by
      rw [Table.render, widths_eq, List.map_map, Text.lines_unlines_flatMap (by simpa using none),
        List.flatMap_map]
      rfl
    have someLine (m : Finding) : (lines (trimmed m)).map (joinPlace .off) ≠ [] := by
      simpa using Text.lines_ne_nil (trimmed m)
    rw [table, layOut, grid, List.map_flatMap, Text.unlines_flatMap someLine]
    exact congrArg unlines
      (List.map_congr_left fun m hm => row_eq_shownRow (widths ms) (placed m hm))

/-! ## Texts -/

theorem lineFeed_not_mem_joinPlace {s : Text} (h : '\n' ∉ s) : '\n' ∉ joinPlace .off s :=
  fun mem => (mem_joinPlace mem).elim h (by decide)

/-- Lines that are changed one by one begin with the lines they were, and a last one that may go on,
exactly when none of them is changed. -/
theorem unlines_prefix_iff {f : Text → Text} (plain : ∀ l, '\n' ∉ l → '\n' ∉ f l)
    {ls : List Text} (hls : ∀ l ∈ ls, '\n' ∉ l) {last : Text} (hlast : '\n' ∉ last) (k : Text)
    (ks : List Text) :
    unlines (ls ++ [last]) <+: unlines (ls.map f ++ k :: ks) ↔
      (∀ l ∈ ls, f l = l) ∧ last <+: k := by
  induction ls with
  | nil =>
    have alone : unlines ([] ++ [last]) = last := rfl
    rw [alone, List.map_nil, List.nil_append, Text.prefix_unlines_iff hlast]
    simp
  | cons l ls ih =>
    have noFeed := hls l List.mem_cons_self
    rw [List.cons_append, Text.unlines_cons _ (by simp), List.map_cons, List.cons_append,
      Text.unlines_cons _ (by simp), Text.break_prefix_iff noFeed (plain l noFeed),
      ih fun k hk => hls k (List.mem_cons_of_mem l hk), List.forall_mem_cons, and_assoc, eq_comm]

/-- A text that ends in no blank comes through as it is exactly when none of its later lines holds
two numbers with only blanks between them. -/
theorem prefix_joinLaterPlaces_append_iff {t : Text} (ends : ∀ c ∈ t.getLast?, isBlank c = false)
    (y : Text) :
    t <+: joinLaterPlaces (t ++ y) ↔ ∀ l ∈ (lines t).tail, ¬ HoldsPlace l := by
  have noFeed : ∀ l ∈ lines t, '\n' ∉ l := fun l => Text.lineFeed_not_mem_of_mem_lines
  obtain ⟨ls, last, found⟩ : ∃ ls last, lines t = ls ++ [last] :=
    ⟨_, _, (List.dropLast_concat_getLast (Text.lines_ne_nil t)).symm⟩
  have whole : t = unlines (ls ++ [last]) := by rw [← found, Text.join_lines]
  rw [joinLaterPlaces, Text.lines_append_of_lines found y, found]
  rw [found] at noFeed
  cases ls with
  | nil =>
    -- All of the text stands on the first line.
    have alone : t = last := whole
    rw [List.nil_append, List.headD_cons, List.tail_cons, Text.unlines_append_cons, alone]
    simp
  | cons first between =>
    have ends : ∀ c ∈ last.getLast?, isBlank c = false := by
      intro c hc
      refine ends c ?_
      obtain ⟨front, eq⟩ := Text.suffix_unlines_concat (first :: between) last
      rw [whole, ← eq, List.getLast?_append, Option.mem_def.mp hc]
      rfl
    rw [List.cons_append, List.forall_mem_cons, List.forall_mem_append, List.forall_mem_singleton]
      at noFeed
    have later := unlines_prefix_iff (fun l => @lineFeed_not_mem_joinPlace l) noFeed.2.1 noFeed.2.2
      (joinPlace .off (last ++ (lines y).headD [])) ((lines y).tail.map (joinPlace .off))
    rw [whole, List.cons_append, Text.unlines_cons _ (by simp), List.cons_append, List.headD_cons,
      List.tail_cons, List.map_append, List.map_cons, Text.unlines_cons _ (by simp),
      Text.break_prefix_iff noFeed.1 noFeed.1, later, prefix_joinPlace_append_iff ends,
      List.tail_cons, List.forall_mem_append, List.forall_mem_singleton]
    simp only [joinPlace_eq_self_iff, true_and]

theorem joinLaterPlaces_append {s : Text} (h : '\n' ∉ s) (t : Text) :
    joinLaterPlaces (s ++ t) = s ++ joinLaterPlaces t := by
  rw [joinLaterPlaces, Text.lines_append_of_not_mem h, List.headD_cons, List.tail_cons,
    Text.unlines_append_cons, joinLaterPlaces]

/-! ## Texts in their rows -/

def textColumn (ws : List Nat) (m : Finding) : Nat :=
  (placeAndLabel ws m).length + (filler ws 3 (labelName m) ++ separator).length

/-- Behind the label of a row stands what is left of the text and the rule. -/
theorem drop_shownRow (ws : List Nat) {m : Finding} (shown : dropPeriod m.text ≠ [])
    (ends : ∀ c ∈ (dropPeriod m.text).getLast?, isBlank c = false) :
    (shownRow ws m).drop (textColumn ws m) = joinLaterPlaces (dropPeriod m.text
      ++ trimRight (filler ws 4 (dropPeriod m.text) ++ (separator ++ ruleName m))) := by
  let gap := filler ws 3 (labelName m) ++ separator
  let tail := filler ws 4 (dropPeriod m.text) ++ (separator ++ ruleName m)
  have parts : message ws m ++ ruleName m = gap ++ (dropPeriod m.text ++ tail) := by
    simp only [message, gap, tail, List.append_assoc]
    rfl
  have kept : trimRight (dropPeriod m.text ++ tail) = dropPeriod m.text ++ trimRight tail :=
    Text.trimRight_append_of_trimmed (Text.trimRight_eq_self ends) tail
  have some : trimRight (dropPeriod m.text ++ tail) ≠ [] := by
    rw [kept]
    exact fun none => shown (List.append_eq_nil_iff.mp none).1
  have noFeed : '\n' ∉ gap := List.not_mem_append lineFeed_not_mem_filler lineFeed_not_mem_separator
  rw [shownRow, parts, Text.trimRight_append gap some, kept, joinLaterPlaces_append noFeed,
    textColumn, ← List.drop_drop, List.drop_left, List.drop_left]

/-- A table that can be written is the rows of its findings, and on the first line of a row nothing
is joined but the place. A text that ends in no blank stands in its row as it is exactly when none of its later lines
holds two numbers with only blanks between them; and if so, the table holds it. -/
theorem text_kept_iff {ms : List Finding} (placed : ∀ m ∈ ms, m.Placed) :
    writeTable .off ms =
        (if ∀ m ∈ ms, m.ShortPlace then .ok (unlines (ms.map (shownRow (widths ms))))
        else .error .tooLongToWrite) ∧
      ∀ m ∈ ms, (∀ c ∈ (dropPeriod m.text).getLast?, isBlank c = false) →
        (dropPeriod m.text <+: (shownRow (widths ms) m).drop (textColumn (widths ms) m) ↔
          ∀ l ∈ (lines (dropPeriod m.text)).tail, ¬ HoldsPlace l) ∧
        ((∀ l ∈ (lines (dropPeriod m.text)).tail, ¬ HoldsPlace l) →
          ∀ t, writeTable .off ms = .ok t → dropPeriod m.text <:+: t) := by
  have written : writeTable .off ms =
      if ∀ m ∈ ms, m.ShortPlace then .ok (unlines (ms.map (shownRow (widths ms))))
      else .error .tooLongToWrite := by
    rw [writeTable_eq, table_eq_rows placed]
  refine ⟨written, fun m hm ends => ?_⟩
  have kept : dropPeriod m.text <+: (shownRow (widths ms) m).drop (textColumn (widths ms) m) ↔
      ∀ l ∈ (lines (dropPeriod m.text)).tail, ¬ HoldsPlace l := by
    by_cases none : dropPeriod m.text = []
    · rw [none]
      exact ⟨fun _ => nofun, fun _ => List.nil_prefix⟩
    · rw [drop_shownRow _ none ends, prefix_joinLaterPlaces_append_iff ends]
  refine ⟨kept, fun clear t returned => ?_⟩
  have row : shownRow (widths ms) m <:+: t := by
    rw [written] at returned
    split at returned
    · cases returned
      exact Text.infix_unlines_of_mem (List.mem_map_of_mem hm)
    · cases returned
  exact ((kept.mpr clear).isInfix.trans (List.drop_suffix _ _).isInfix).trans row

theorem text_kept_iff_later_number :
    let m : Finding := { line := 3, column := 14, text := "1 2\n5.".toList, rule := some ['7'] }
    dropPeriod m.text <+: (shownRow (widths [m]) m).drop (textColumn (widths [m]) m) ∧
      ∃ t, writeTable .off [m] = .ok t ∧ t = "  3:14  warning  1 2\n5:7".toList ∧
        dropPeriod m.text <:+: t := by
  intro m
  have placed : ∀ n ∈ [m], n.Placed := by
    intro n hn
    obtain rfl := List.mem_singleton.mp hn
    exact ⟨by decide, by decide⟩
  have ends : ∀ c ∈ (dropPeriod m.text).getLast?, isBlank c = false := by
    intro c last
    cases last
    rfl
  obtain ⟨written, texts⟩ := text_kept_iff placed
  rw [if_pos (by decide)] at written
  obtain ⟨kept, held⟩ := texts m List.mem_cons_self ends
  have later : (lines (dropPeriod m.text)).tail = [['5']] := by decide +kernel
  have clear : ∀ l ∈ (lines (dropPeriod m.text)).tail, ¬ HoldsPlace l := by
    rw [later]
    exact List.forall_mem_singleton.mpr (joinPlace_eq_self_iff.mp rfl)
  exact ⟨kept.mpr clear, _, written, by decide +kernel, held clear _ written⟩

/-- A text of two lines that its table does not hold: the numbers on its second line are joined. -/
theorem numbers_joined_in_text :
    let m : Finding := { line := 1, column := 1, text := "a\n1 2".toList }
    m.Placed ∧ (∀ c ∈ (dropPeriod m.text).getLast?, isBlank c = false) ∧
      ∃ t, writeTable .off [m] = .ok t ∧ t = "  1:1  warning  a\n1:2".toList ∧
        ¬ dropPeriod m.text <:+: t := by
  intro m
  have written : table .off [m] = "  1:1  warning  a\n1:2".toList := by decide +kernel
  have text : dropPeriod m.text = "a\n1 2".toList := by decide +kernel
  have ends : ∀ c ∈ (dropPeriod m.text).getLast?, isBlank c = false := by
    intro c last
    cases last
    rfl
  have returned : writeTable .off [m] = .ok (table .off [m]) := by
    rw [writeTable_eq, if_pos (by decide)]
  refine ⟨⟨by decide, by decide⟩, ends, _, returned, written, ?_⟩
  rw [written, text]
  decide +kernel

end Section

end LintReport
