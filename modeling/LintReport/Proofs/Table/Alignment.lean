/-
  LintReport.Proofs.Table.Alignment — where the cells of any table stand.

  The rows of a table may be of different lengths. A column is as wide as the widest cell of the
  rows that have it, and each of its cells is extended by spaces to that width. So the measure must
  count spaces as they are, wherever they are put. Lengths do; and so does the length of what shows,
  since a space ends no control sequence, so that the spaces behind a cell cannot complete one that
  the cell breaks off.

  Proved:
  - `getD_widths_eq_columnWidth`: the widths are found in one pass over rows of any lengths.
  - `countsSpaces_length` / `countsSpaces_visibleLength`: both measures count spaces as they are.
  - `padRow_fills`: each cell of a row is brought to the width of its column.
  - `join_eq_append`: the cells of a row stand behind each other, with a separator between them.
  - `render_aligned`: a table is its rows, with their cells extended like this, and where they
    begin.
-/

import LintReport.Proofs.Terminal.Residue
import LintReport.Table
import Mathlib.Data.List.Forall2

namespace LintReport

open Terminal (visibleLength)

namespace Table

/-! ## Columns -/

/-- The cells of a column, from the rows that have it. -/
def column (rows : List Row) (j : Nat) : List Text := rows.filterMap fun row => row[j]?

def columnWidth (measure : Text → Nat) (rows : List Row) (j : Nat) : Nat :=
  ((column rows j).map measure).max?.getD 0

/-- A row without the column leaves its width as it is. -/
theorem foldl_widths_eq (measure : Text → Nat) (rows : List Row) (j w : Nat) :
    rows.foldl (fun w row => max w ((row.map measure).getD j 0)) w =
      ((column rows j).map measure).foldl max w := by
  induction rows generalizing w with
  | nil => rfl
  | cons row rows ih =>
    rw [List.foldl_cons, ih, List.getD_eq_getElem?_getD, List.getElem?_map]
    cases cell : row[j]? with
    | none =>
      have without : column (row :: rows) j = column rows j := List.filterMap_cons_none cell
      rw [without, Option.map_none, Option.getD_none, Nat.max_zero]
    | some c =>
      have among : column (row :: rows) j = c :: column rows j := List.filterMap_cons_some cell
      rw [among, Option.map_some, Option.getD_some, List.map_cons, List.foldl_cons]

/-- The widths are found in one pass over rows of any lengths. -/
theorem getD_widths_eq_columnWidth (measure : Text → Nat) (rows : List Row) (j : Nat) :
    (widths measure rows).getD j 0 = columnWidth measure rows j := by
  rw [getD_widths, foldl_widths_eq, List.foldl_max, Nat.zero_max, columnWidth]

theorem measure_le_columnWidth (measure : Text → Nat) {rows : List Row} {row : Row}
    (hrow : row ∈ rows) {j : Nat} {cell : Text} (hcell : row[j]? = some cell) :
    measure cell ≤ columnWidth measure rows j := by
  have among : cell ∈ column rows j := List.mem_filterMap.mpr ⟨row, hrow, hcell⟩
  exact List.le_max?_getD_of_mem (List.mem_map_of_mem among)

/-! ## Measures -/

/-- Spaces before and behind a text count one each. -/
structure CountsSpaces (measure : Text → Nat) : Prop where
  before (n : Nat) (s : Text) : measure (List.replicate n ' ' ++ s) = n + measure s
  behind (n : Nat) (s : Text) : measure (s ++ List.replicate n ' ') = measure s + n

theorem countsSpaces_length : CountsSpaces List.length where
  before n s := by rw [List.length_append, List.length_replicate]
  behind n s := by rw [List.length_append, List.length_replicate]

theorem esc_not_mem_spaces (n : Nat) : Terminal.esc ∉ List.replicate n ' ' :=
  fun mem => absurd (List.eq_of_mem_replicate mem) (by decide)

/-- A space ends no control sequence, so that one which is broken off stays so. -/
theorem fresh_spaces (n : Nat) : Terminal.Fresh (List.replicate n ' ') :=
  Terminal.fresh_of_not_isFinal fun c hc => by
    rw [List.eq_of_mem_replicate hc]
    decide

theorem countsSpaces_visibleLength : CountsSpaces visibleLength where
  before n s := by
    have ended := Terminal.ended_of_plain (esc_not_mem_spaces n)
    rw [visibleLength, ended, Terminal.unstyled_eq_self (esc_not_mem_spaces n),
      List.length_append, List.length_replicate, visibleLength]
  behind n s := by
    rw [visibleLength, fresh_spaces, Terminal.unstyled_eq_self (esc_not_mem_spaces n),
      List.length_append, List.length_replicate, visibleLength]

/-! ## Cells -/

/-- The text is the cell with spaces on the side that its column leaves free. -/
inductive Extends (cell : Text) : Align → Text → Prop
  | left (n : Nat) : Extends cell .left (cell ++ List.replicate n ' ')
  | right (n : Nat) : Extends cell .right (List.replicate n ' ' ++ cell)

/-- The cells of the row in order, each extended to the width of its column. -/
structure Fills (measure : Text → Nat) (aligns : List Align) (width : Nat → Nat)
    (row cells : Row) : Prop where
  length : cells.length = row.length
  cell {j : Nat} {cell : Text} : row[j]? = some cell →
    ∃ padded, cells[j]? = some padded ∧ Extends cell (aligns.getD j .left) padded ∧
      measure padded = width j

theorem extends_pad (align : Align) (n : Nat) (cell : Text) :
    Extends cell align (pad align n cell) := by
  cases align with
  | left => exact .left n
  | right => exact .right n

theorem measure_pad {measure : Text → Nat} (h : CountsSpaces measure) (align : Align) {w : Nat}
    {cell : Text} (fits : measure cell ≤ w) : measure (pad align (w - measure cell) cell) = w := by
  cases align with
  | left =>
    rw [pad, h.behind]
    omega
  | right =>
    rw [pad, h.before]
    omega

theorem getElem?_padRow (measure : Text → Nat) (ws : List Nat) (aligns : List Align) (row : Row)
    (j : Nat) :
    (padRow measure ws aligns row)[j]? =
      row[j]?.map fun cell => pad (aligns.getD j .left) (ws.getD j 0 - measure cell) cell := by
  induction row generalizing ws aligns j with
  | nil => rfl
  | cons cell cells ih =>
    -- The widths and the hints may run out before the row does.
    cases j with
    | zero => cases ws <;> cases aligns <;> rfl
    | succ j =>
      rw [padRow, List.getElem?_cons_succ, List.getElem?_cons_succ, ih]
      cases ws <;> cases aligns <;> simp

/-- Each cell of a row is brought to the width of its column. -/
theorem padRow_fills {measure : Text → Nat} (h : CountsSpaces measure) (aligns : List Align)
    {rows : List Row} {row : Row} (hrow : row ∈ rows) :
    Fills measure aligns (columnWidth measure rows) row
      (padRow measure (widths measure rows) aligns row) where
  length := length_padRow _ _ _ _
  cell {j cell} hcell := by
    have fits := measure_le_columnWidth measure hrow hcell
    rw [getElem?_padRow, hcell, Option.map_some, getD_widths_eq_columnWidth]
    exact ⟨_, rfl, extends_pad _ _ _, measure_pad h _ fits⟩

/-! ## Offsets -/

/-- The cells of a row stand behind each other, with a separator between them. -/
theorem join_eq_append (separator : Text) (cells : Row) {j : Nat} (hj : j < cells.length) :
    Text.join separator cells =
      (cells.take j).flatMap (· ++ separator) ++ Text.join separator (cells.drop j) := by
  induction j generalizing cells with
  | zero => rfl
  | succ j ih =>
    cases cells with
    | nil => cases hj
    | cons cell cells =>
      have more : j < cells.length := Nat.lt_of_succ_lt_succ hj
      have others : cells ≠ [] := List.ne_nil_of_length_pos (by omega)
      rw [Text.join_cons separator cell others, ih cells more, List.take_succ_cons,
        List.flatMap_cons, List.drop_succ_cons]
      simp only [List.append_assoc]

/-- Where the cells of a column begin, with their padding: behind all columns before it, each of its
width and with a separator. -/
def columnStart (width : Nat → Nat) (separator : Text) : Nat → Nat
  | 0 => 0
  | j + 1 => columnStart width separator j + (width j + separator.length)

/-- What stands before a column is as long as the columns before it with their separators. -/
theorem length_before {aligns : List Align} {width : Nat → Nat} {row cells : Row}
    (h : Fills List.length aligns width row cells) (separator : Text) {j : Nat}
    (hj : j ≤ cells.length) :
    ((cells.take j).flatMap (· ++ separator)).length = columnStart width separator j := by
  induction j with
  | zero => rfl
  | succ j ih =>
    have inRow : j < row.length := h.length ▸ hj
    obtain ⟨padded, found, -, wide⟩ := h.cell (List.getElem?_eq_getElem inRow)
    rw [List.take_add_one, found, List.flatMap_append, List.length_append, ih (by omega),
      Option.toList_some, List.flatMap_singleton, List.length_append, wide, columnStart]

/-! ## Tables -/

/-- A table is its rows in order, one line each, with all cells extended by spaces alone to the
width of their columns; only blanks at the ends of lines are cut off. Where cells are measured by
their length, those of a column begin at one offset in all lines that have it. -/
theorem render_aligned {measure : Text → Nat}
    (either : measure = List.length ∨ measure = visibleLength) (aligns : List Align)
    (separator : Text) (rows : List Row) :
    ∃ grid : List Row,
      List.Forall₂ (Fills measure aligns (columnWidth measure rows)) rows grid ∧
      render measure aligns separator rows =
        Text.unlines (grid.map fun cells => Text.trimRight (Text.join separator cells)) ∧
      (measure = List.length → ∀ cells ∈ grid, ∀ j < cells.length, ∃ before,
        Text.join separator cells = before ++ Text.join separator (cells.drop j) ∧
          before.length = columnStart (columnWidth measure rows) separator j) := by
  have counts : CountsSpaces measure := by
    rcases either with rfl | rfl
    · exact countsSpaces_length
    · exact countsSpaces_visibleLength
  have filled : ∀ row ∈ rows, Fills measure aligns (columnWidth measure rows) row
      (padRow measure (widths measure rows) aligns row) :=
    fun row hrow => padRow_fills counts aligns hrow
  refine ⟨rows.map (padRow measure (widths measure rows) aligns), ?_, ?_, ?_⟩
  · exact List.forall₂_map_right_iff.mpr (List.forall₂_same.mpr filled)
  · rw [render, List.map_map]
    rfl
  · rintro rfl cells hcells j hj
    obtain ⟨row, hrow, rfl⟩ := List.mem_map.mp hcells
    have offset := length_before (filled row hrow) separator (Nat.le_of_lt hj)
    exact ⟨_, join_eq_append separator _ hj, offset⟩

/-- Rows of three lengths, with a painted cell, one that breaks a sequence off and one that breaks
off a sequence around another; and a column that only the longest row has. -/
theorem render_aligned_ragged :
    let rows : List Row :=
      [["\x1b[31mab\x1b[39m".toList, "\x1b[3".toList, "x ".toList], ["\x1b\x1b[m[3".toList], [],
        ["c".toList, "12345".toList]]
    let aligns := [Align.left, .right]
    (visibleLength = List.length ∨ visibleLength = visibleLength) ∧
      (∃ grid,
        List.Forall₂ (Fills visibleLength aligns (columnWidth visibleLength rows)) rows grid ∧
        render visibleLength aligns ['|'] rows =
          Text.unlines (grid.map fun cells => Text.trimRight (Text.join ['|'] cells))) ∧
      render visibleLength aligns ['|'] rows =
        "\x1b[31mab\x1b[39m |  \x1b[3|x\n\x1b\x1b[m[3\n\nc  |12345".toList ∧
      ∃ grid, List.Forall₂ (Fills List.length aligns (columnWidth List.length rows)) rows grid ∧
        ∀ cells ∈ grid, 2 < cells.length → ∃ before,
          Text.join ['|'] cells = before ++ Text.join ['|'] (cells.drop 2) ∧
            before.length = 19 := by
  intro rows aligns
  have either : visibleLength = List.length ∨ visibleLength = visibleLength := .inr rfl
  obtain ⟨grid, filled, shown, -⟩ := render_aligned either aligns ['|'] rows
  obtain ⟨grid', filled', -, starts⟩ := render_aligned (.inl rfl) aligns ['|'] rows
  refine ⟨either, ⟨grid, filled, shown⟩, by decide +kernel, grid', filled', ?_⟩
  intro cells hcells third
  obtain ⟨before, whole, offset⟩ := starts rfl cells hcells 2 third
  exact ⟨before, whole, offset.trans (by decide +kernel)⟩

end Table

end LintReport
