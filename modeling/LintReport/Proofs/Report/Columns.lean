/-
  LintReport.Proofs.Report.Columns — where the cells of a table of findings stand.

  Without colours and control sequences a cell is as wide as it is long, so that a column is as wide
  as its longest cell. The lines of a table are written here from that alone, without the grid the
  table is laid out on: line numbers stand to the right, all other cells to the left, and only
  blanks at the end of a line are missing. Hence the place, the label and the text of each finding
  begin where those of the others do.

  Proved:
  - `filler_widths`: a cell is brought to the length of the longest cell of its column.
  - `lineOf_eq_aligned`: the line of a finding is its cells, aligned with those of the others.
  - `table_aligned`: a table has one such line for each finding, with the same offsets in all, unless
    a number is too long for it.
  - `long_number_not_aligned`: a finding whose line number is.
-/

import LintReport.Proofs.Report.Printing
import LintReport.Proofs.Report.Rows

namespace LintReport

open Terminal (esc visibleLength)

namespace Text

def longest (ts : List Text) : Nat := (ts.map List.length).foldr max 0

theorem length_le_longest {ts : List Text} {t : Text} (h : t ∈ ts) : t.length ≤ longest ts := by
  induction ts with
  | nil => cases h
  | cons s ts ih =>
    rcases List.mem_cons.mp h with rfl | h
    · exact Nat.le_max_left _ _
    · exact Nat.le_trans (ih h) (Nat.le_max_right _ _)

theorem longest_eq_zero {ts : List Text} (h : ∀ t ∈ ts, t = []) : longest ts = 0 := by
  induction ts with
  | nil => rfl
  | cons t ts ih =>
    have first : t = [] := h t List.mem_cons_self
    have rest : longest ts = 0 := ih fun s hs => h s (List.mem_cons_of_mem t hs)
    change max t.length (longest ts) = 0
    rw [first, rest]
    rfl

/-- What stands before a place of a text does not change how it is trimmed behind the place. -/
theorem drop_trimRight_append (s t : Text) :
    (trimRight (s ++ t)).drop s.length = trimRight t := by
  by_cases blank : trimRight t = []
  · have cut : (trimRight (s ++ t)).length ≤ s.length := by
      rw [trimRight_append_blank s ((trimRight_eq_nil_iff t).mp blank)]
      exact (prefix_trimRight s).length_le
    rw [blank, List.drop_eq_nil_of_le cut]
  · rw [trimRight_append s blank, List.drop_left]

end Text

open Text (longest trimRight)

theorem foldl_max_eq {α : Type} (f : α → Nat) (xs : List α) (n : Nat) :
    xs.foldl (fun w x => max w (f x)) n = max n ((xs.map f).foldr max 0) := by
  induction xs generalizing n with
  | nil => simp
  | cons x xs ih => rw [List.foldl_cons, ih, List.map_cons, List.foldr_cons, Nat.max_assoc]

namespace Section

/-! ## Cells -/

def labelName (m : Finding) : Text := (Label.ofFinding m).name

def ruleName (m : Finding) : Text := m.rule.getD []

theorem ruleCell_off (m : Finding) : ruleCell .off m = ruleName m := by
  unfold ruleCell ruleName
  split
  · rename_i none
    rw [none, Option.getD_none]
  · rename_i unnamed
    rw [unnamed, Option.getD_some]
  · rename_i rule _ named
    rw [named, Option.getD_some, Terminal.Style.paint_off]

section

variable {ms : List Finding} (j : Nat) (cell : Finding → Text)

/-- A column is as wide as its longest cell. -/
theorem getD_widths_eq_longest (column : ∀ m, (row .off m)[j]? = some (cell m))
    (plain : ∀ m ∈ ms, esc ∉ cell m) : (widths ms).getD j 0 = longest (ms.map cell) := by
  have width : ∀ m ∈ ms, ((row .off m).map visibleLength).getD j 0 = (cell m).length := by
    intro m hm
    rw [List.getD_eq_getElem?_getD, List.getElem?_map, column m, Option.map_some, Option.getD_some,
      visibleLength, Terminal.unstyled_eq_self (plain m hm)]
  rw [widths, Table.getD_widths, List.foldl_map, foldl_max_eq, Nat.zero_max, longest, List.map_map]
  exact congrArg (List.foldr max 0) (List.map_congr_left width)

/-- A cell is brought to the length of the longest cell of its column. -/
theorem filler_widths (column : ∀ m, (row .off m)[j]? = some (cell m))
    (plain : ∀ m ∈ ms, esc ∉ cell m) {m : Finding} (hm : m ∈ ms) :
    filler (widths ms) j (cell m) =
      List.replicate (longest (ms.map cell) - (cell m).length) ' ' := by
  rw [filler, getD_widths_eq_longest j cell column plain, visibleLength,
    Terminal.unstyled_eq_self (plain m hm)]

end

/-! ## Aligned lines -/

def alignedPlace (ms : List Finding) (m : Finding) : Text :=
  (lineNumber m).leftpad (longest (ms.map lineNumber)) ' '
    ++ ':' :: (columnNumber m).rightpad (longest (ms.map columnNumber)) ' '

def alignedLabel (ms : List Finding) (m : Finding) : Text :=
  (labelName m).rightpad (longest (ms.map labelName)) ' '

def alignedText (ms : List Finding) (m : Finding) : Text :=
  (dropPeriod m.text).rightpad (longest (ms.map fun m => dropPeriod m.text)) ' '

/-- The cells of a finding, aligned with those of the others. -/
def alignedLine (ms : List Finding) (m : Finding) : Text :=
  separator ++ alignedPlace ms m ++ separator ++ alignedLabel ms m ++ separator
    ++ alignedText ms m ++ separator ++ ruleName m

def colonOffset (ms : List Finding) : Nat := 2 + longest (ms.map lineNumber)

def labelOffset (ms : List Finding) : Nat :=
  colonOffset ms + 1 + longest (ms.map columnNumber) + 2

def textOffset (ms : List Finding) : Nat := labelOffset ms + longest (ms.map labelName) + 2

/-- The line of a finding is its cells, aligned with those of the others. -/
theorem lineOf_eq_aligned {ms : List Finding} (plain : ∀ m ∈ ms, m.Plain) {m : Finding}
    (hm : m ∈ ms) : lineOf .off (widths ms) m = trimRight (alignedLine ms m) := by
  have placeholder : filler (widths ms) 0 [] = [] := by
    have width : longest (ms.map fun _ => []) = 0 := Text.longest_eq_zero fun t ht => by simp_all
    rw [filler_widths 0 (fun _ => []) (fun _ => rfl) (fun _ _ => List.not_mem_nil) hm, width]
    rfl
  have number := filler_widths 1 lineNumber (fun _ => rfl) (fun n _ => (ofInt_plain n.line).1) hm
  have column :=
    filler_widths 2 columnNumber (fun _ => rfl) (fun n _ => (ofInt_plain n.column).1) hm
  have label := filler_widths 3 labelName (fun _ => rfl)
    (fun n _ => (labelName_plain (Label.ofFinding n)).1) hm
  have text := filler_widths 4 (fun n => dropPeriod n.text) (fun _ => rfl)
    (fun n hn mem => (plain n hn).text.1 ((prefix_dropPeriod _).mem mem)) hm
  have front : indent (widths ms) m ++ (lineNumber m ++ ':' :: (columnNumber m
      ++ afterPlace (widths ms) m)) = separator ++ alignedPlace ms m ++ separator := by
    simp only [indent, afterPlace, placeholder, number, column, alignedPlace, List.leftpad,
      List.rightpad, List.nil_append, List.append_assoc, List.cons_append]
  have behind : labelName m ++ (message (widths ms) m ++ ruleName m) =
      alignedLabel ms m ++ separator ++ alignedText ms m ++ separator ++ ruleName m := by
    change labelName m ++ ((filler (widths ms) 3 (labelName m) ++ _) ++ _) = _
    simp only [label, text, alignedLabel, alignedText, List.rightpad, List.append_assoc]
  have trimmed : trimRight (labelName m) = labelName m := trimRight_labelName _
  have kept : trimRight (labelName m ++ (message (widths ms) m ++ ruleName m)) =
      labelName m ++ trimRight (message (widths ms) m ++ ruleName m) :=
    Text.trimRight_append_of_trimmed trimmed _
  have shown : trimRight (labelName m ++ (message (widths ms) m ++ ruleName m)) ≠ [] := by
    rw [kept]
    exact fun none => labelCell_ne_nil .off m (List.append_eq_nil_iff.mp none).1
  have line : alignedLine ms m = (separator ++ alignedPlace ms m ++ separator)
      ++ (labelName m ++ (message (widths ms) m ++ ruleName m)) := by
    rw [behind]
    simp only [alignedLine, List.append_assoc]
  rw [line, Text.trimRight_append _ shown, kept, ← front]
  simp only [lineOf, afterNumbers, ruleCell_off, Terminal.Style.paint_off, List.append_assoc,
    List.cons_append]
  rfl

theorem lineFeed_not_mem_alignedLine (ms : List Finding) {m : Finding} (h : m.Plain) :
    '\n' ∉ alignedLine ms m := by
  have spaces (n : Nat) : '\n' ∉ List.replicate n ' ' :=
    fun mem => absurd (List.eq_of_mem_replicate mem) (by decide)
  have text : '\n' ∉ dropPeriod m.text := fun mem => h.text.2 ((prefix_dropPeriod _).mem mem)
  have label : '\n' ∉ labelName m := (labelName_plain (Label.ofFinding m)).2
  have line : '\n' ∉ lineNumber m := (ofInt_plain m.line).2
  have column : '\n' ∉ columnNumber m := (ofInt_plain m.column).2
  have rule : '\n' ∉ ruleName m := by
    cases named : m.rule with
    | none => simp [ruleName, named]
    | some r => simpa [ruleName, named] using (h.rule r named).2
  simp only [alignedLine, alignedPlace, alignedLabel, alignedText, separator, List.leftpad,
    List.rightpad, List.mem_append, List.mem_cons, List.not_mem_nil, not_or]
  exact ⟨⟨⟨⟨⟨⟨⟨by decide, ⟨spaces _, line⟩, by decide, column, spaces _⟩, by decide⟩, label,
    spaces _⟩, by decide⟩, text, spaces _⟩, by decide⟩, rule⟩

/-! ## Offsets -/

section

variable {ms : List Finding} {m : Finding}

theorem length_leftpad_longest (cell : Finding → Text) (hm : m ∈ ms) :
    ((cell m).leftpad (longest (ms.map cell)) ' ').length = longest (ms.map cell) := by
  rw [List.length_leftpad, Nat.max_eq_left (Text.length_le_longest (List.mem_map_of_mem hm))]

theorem length_rightpad_longest (cell : Finding → Text) (hm : m ∈ ms) :
    ((cell m).rightpad (longest (ms.map cell)) ' ').length = longest (ms.map cell) := by
  rw [List.length_rightpad, Nat.max_eq_left (Text.length_le_longest (List.mem_map_of_mem hm))]

/-- The colon of each line stands where those of the others do. -/
theorem colon_at_offset (hm : m ∈ ms) :
    [':'] <+: (trimRight (alignedLine ms m)).drop (colonOffset ms) := by
  obtain ⟨rest, line⟩ : ∃ rest, alignedLine ms m =
      (separator ++ (lineNumber m).leftpad (longest (ms.map lineNumber)) ' ') ++ ([':'] ++ rest) :=
    ⟨_, by simp only [alignedLine, alignedPlace, List.append_assoc, List.cons_append,
      List.nil_append]; rfl⟩
  have offset : (separator ++ (lineNumber m).leftpad (longest (ms.map lineNumber)) ' ').length =
      colonOffset ms := by
    rw [List.length_append, length_leftpad_longest lineNumber hm]
    rfl
  rw [line, ← offset, Text.drop_trimRight_append, Text.trimRight_append_of_trimmed (by decide)]
  exact List.prefix_append _ _

theorem length_beforeLabel (hm : m ∈ ms) :
    (separator ++ alignedPlace ms m ++ separator).length = labelOffset ms := by
  have number := length_leftpad_longest lineNumber hm
  have column := length_rightpad_longest columnNumber hm
  have width : separator.length = 2 := rfl
  simp only [alignedPlace, List.length_append, List.length_cons, number, column, width,
    labelOffset, colonOffset]
  omega

/-- The label of each line begins where those of the others do. -/
theorem label_at_offset (hm : m ∈ ms) :
    labelName m <+: (trimRight (alignedLine ms m)).drop (labelOffset ms) := by
  obtain ⟨rest, line⟩ : ∃ rest, alignedLine ms m =
      (separator ++ alignedPlace ms m ++ separator) ++ (labelName m ++ rest) :=
    ⟨_, by simp only [alignedLine, alignedLabel, List.rightpad, List.append_assoc]; rfl⟩
  have trimmed : trimRight (labelName m) = labelName m := trimRight_labelName _
  rw [line, ← length_beforeLabel hm, Text.drop_trimRight_append,
    Text.trimRight_append_of_trimmed trimmed]
  exact List.prefix_append _ _

/-- Where the texts begin there is nothing but the text, the rule and what lies between them. -/
theorem text_at_offset (hm : m ∈ ms) :
    (trimRight (alignedLine ms m)).drop (textOffset ms) =
      trimRight (alignedText ms m ++ separator ++ ruleName m) := by
  have line : alignedLine ms m =
      (separator ++ alignedPlace ms m ++ separator ++ alignedLabel ms m ++ separator)
        ++ (alignedText ms m ++ separator ++ ruleName m) := by
    simp only [alignedLine, List.append_assoc]
  have offset : (separator ++ alignedPlace ms m ++ separator ++ alignedLabel ms m
      ++ separator).length = textOffset ms := by
    rw [List.length_append, List.length_append, length_beforeLabel hm, alignedLabel,
      length_rightpad_longest labelName hm]
    rfl
  rw [line, ← offset, Text.drop_trimRight_append]

end

theorem lines_table {ms : List Finding} (nonempty : ms ≠ []) (placed : ∀ m ∈ ms, m.Placed)
    (plain : ∀ m ∈ ms, m.Plain) :
    Text.lines (table .off ms) = ms.map fun m => trimRight (alignedLine ms m) := by
  have rows : ms.map (lineOf .off (widths ms)) = ms.map fun m => trimRight (alignedLine ms m) :=
    List.map_congr_left fun m hm => lineOf_eq_aligned plain hm
  rw [table_eq .off placed plain, rows]
  refine Text.lines_unlines (by simpa using nonempty) fun l hl => ?_
  obtain ⟨m, hm, rfl⟩ := List.mem_map.mp hl
  exact fun mem => lineFeed_not_mem_alignedLine ms (plain m hm) ((Text.prefix_trimRight _).mem mem)

/-- A table of findings that each take one line has one line for each of them, in their order, with
its cells aligned with those of the others. So colons, labels and texts each stand at one offset in
all lines, and behind the label a line is nothing but text and rule, as they are. There is no such
table only when the number of a line or of a column is too long to be written. -/
theorem table_aligned {ms : List Finding} (nonempty : ms ≠ []) (placed : ∀ m ∈ ms, m.Placed)
    (plain : ∀ m ∈ ms, m.Plain) :
    ((∀ m ∈ ms, m.ShortPlace) → ∃ t, writeTable .off ms = .ok t ∧
      Text.lines t = ms.map (fun m => trimRight (alignedLine ms m)) ∧
      ∀ m ∈ ms,
        [':'] <+: (trimRight (alignedLine ms m)).drop (colonOffset ms) ∧
        labelName m <+: (trimRight (alignedLine ms m)).drop (labelOffset ms) ∧
        (trimRight (alignedLine ms m)).drop (textOffset ms) =
          trimRight (alignedText ms m ++ separator ++ ruleName m)) ∧
    ((∃ m ∈ ms, ¬ m.ShortPlace) → writeTable .off ms = .error .tooLongToWrite) := by
  rw [writeTable_eq]
  refine ⟨?_, ?_⟩
  · intro short
    refine ⟨table .off ms, if_pos short, lines_table nonempty placed plain, ?_⟩
    exact fun m hm => ⟨colon_at_offset hm, label_at_offset hm, text_at_offset hm⟩
  · intro long
    obtain ⟨m, hm, tooLong⟩ := long
    exact if_neg fun short => tooLong (short m hm)

theorem table_aligned_numbers :
    let wide : Finding :=
      { line := 100, column := 7, text := "4 5 .".toList, rule := some "6 7".toList }
    let narrow : Finding := { line := 9, column := 12, text := "1 2.".toList, fatal := true }
    let bare : Finding := { rule := some [] }
    let ms := [wide, narrow, bare]
    (∃ t, writeTable .off ms = .ok t ∧
      Text.lines t = ["  100:7   warning  4 5 .  6 7".toList, "    9:12  error    1 2".toList,
        "    0:0   warning".toList]) ∧
      (trimRight (alignedLine ms narrow)).drop (textOffset ms) = "1 2".toList := by
  intro wide narrow bare ms
  have placed : ∀ m ∈ ms, m.Placed := by
    intro m hm
    simp only [ms, List.mem_cons, List.not_mem_nil, or_false] at hm
    rcases hm with rfl | rfl | rfl <;> exact ⟨by decide, by decide⟩
  have plain : ∀ m ∈ ms, m.Plain := by
    intro m hm
    simp only [ms, List.mem_cons, List.not_mem_nil, or_false] at hm
    rcases hm with rfl | rfl | rfl
    · refine ⟨by decide, fun r named => ?_⟩
      cases named
      decide
    · exact ⟨by decide, nofun⟩
    · refine ⟨by decide, fun r named => ?_⟩
      cases named
      decide
  have short : ∀ m ∈ ms, m.ShortPlace := by decide
  obtain ⟨t, written, lines, offsets⟩ :=
    (table_aligned (List.cons_ne_nil wide _) placed plain).1 short
  obtain ⟨-, -, text⟩ := offsets narrow (List.mem_cons_of_mem wide List.mem_cons_self)
  exact ⟨⟨t, written, lines.trans (by decide +kernel)⟩, text.trans (by decide +kernel)⟩

/-- The number of a line may be too long for a table. -/
theorem long_number_not_aligned :
    let m : Finding := { line := 10 ^ Text.Numeral.maxDigits, column := 1, text := ['m'] }
    m.Placed ∧ m.Plain ∧ writeTable .off [m] = .error .tooLongToWrite := by
  intro m
  have large : (0 : Int) < 10 ^ Text.Numeral.maxDigits := Int.pow_pos (by decide)
  have long : ¬ m.ShortPlace := by
    intro short
    exact absurd ((Text.Numeral.short_iff_lt large.le).mp short.1) (Int.lt_irrefl _)
  refine ⟨⟨large.le, by decide⟩, ⟨by decide, nofun⟩, ?_⟩
  rw [writeTable_eq]
  exact if_neg fun all => long (all m List.mem_cons_self)

end Section

end LintReport
