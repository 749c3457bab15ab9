/-
  LintReport.Table — rows of cells laid out in columns.

  A column is as wide as its widest cell; how wide a cell is, a measure says, so that control
  sequences need not count. A row may be shorter than others: it has a cell in its first columns
  only. Blanks at the end of a line are cut off.

  Proved:
  - `getD_widths`: the width of a column is the greatest measure of a cell in it.
  - `length_padRow`: padding keeps the number of cells.
  - `mem_line`: on a line stand the characters of its cells and separators, and spaces.
-/

import LintReport.Text.Blank

namespace LintReport

inductive Align where
  | left
  | right
  deriving DecidableEq, Repr

namespace Table

abbrev Row := List Text

def widen : List Nat → List Nat → List Nat
  | [], ns => ns
  | ms, [] => ms
  | m :: ms, n :: ns => max m n :: widen ms ns

def widths (measure : Text → Nat) (rows : List Row) : List Nat :=
  rows.foldl (fun ws row => widen ws (row.map measure)) []

def pad (align : Align) (missing : Nat) (cell : Text) : Text :=
  match align with
  | .left => cell ++ List.replicate missing ' '
  | .right => List.replicate missing ' ' ++ cell

/-- The cells of a row, each brought to the width of its column. A column without a hint stands to
the left. -/
def padRow (measure : Text → Nat) : List Nat → List Align → Row → Row
  | _, _, [] => []
  | ws, aligns, cell :: cells =>
    pad (aligns.headD .left) (ws.headD 0 - measure cell) cell
      :: padRow measure ws.tail aligns.tail cells

/-- One line of the table before blanks are cut off. -/
def line (measure : Text → Nat) (ws : List Nat) (aligns : List Align) (separator : Text)
    (row : Row) : Text :=
  Text.join separator (padRow measure ws aligns row)

def render (measure : Text → Nat) (aligns : List Align) (separator : Text) (rows : List Row) :
    Text :=
  Text.unlines
    (rows.map fun row => Text.trimRight (line measure (widths measure rows) aligns separator row))

@[simp] theorem length_padRow (measure : Text → Nat) (ws : List Nat) (aligns : List Align)
    (row : Row) : (padRow measure ws aligns row).length = row.length := by
  induction row generalizing ws aligns with
  | nil => rfl
  | cons cell cells ih => simp [padRow, ih]

theorem getD_widen (ms ns : List Nat) (j : Nat) :
    (widen ms ns).getD j 0 = max (ms.getD j 0) (ns.getD j 0) := by
  induction ms generalizing ns j with
  | nil => simp [widen]
  | cons m ms ih =>
    cases ns with
    | nil => simp [widen]
    | cons n ns =>
      cases j with
      | zero => simp [widen]
      | succ j => simpa [widen] using ih ns j

/-- The width of a column is the greatest measure of a cell in it. -/
theorem getD_widths (measure : Text → Nat) (rows : List Row) (j : Nat) :
    (widths measure rows).getD j 0 =
      rows.foldl (fun w row => max w ((row.map measure).getD j 0)) 0 := by
  suffices h : ∀ ws : List Nat,
      (rows.foldl (fun ws row => widen ws (row.map measure)) ws).getD j 0 =
        rows.foldl (fun w row => max w ((row.map measure).getD j 0)) (ws.getD j 0) by
    simpa [widths] using h []
  induction rows with
  | nil => exact fun ws => rfl
  | cons row rows ih => exact fun ws => by rw [List.foldl_cons, ih, getD_widen, List.foldl_cons]

theorem mem_padRow {measure : Text → Nat} {ws : List Nat} {aligns : List Align} {row : Row}
    {c : Char} {padded : Text} (h : padded ∈ padRow measure ws aligns row) (hc : c ∈ padded) :
    c = ' ' ∨ ∃ cell ∈ row, c ∈ cell := by
  induction row generalizing ws aligns with
  | nil => cases h
  | cons cell cells ih =>
    rcases List.mem_cons.mp h with rfl | h
    · have : c = ' ' ∨ c ∈ cell := by
        unfold pad at hc
        split at hc
        · rcases List.mem_append.mp hc with hc | hc
          · exact Or.inr hc
          · exact Or.inl (List.eq_of_mem_replicate hc)
        · rcases List.mem_append.mp hc with hc | hc
          · exact Or.inl (List.eq_of_mem_replicate hc)
          · exact Or.inr hc
      exact this.imp_right fun hc => ⟨cell, List.mem_cons_self, hc⟩
    · refine (ih h).imp_right ?_
      intro h
      obtain ⟨cell', hcell', hc'⟩ := h
      exact ⟨cell', List.mem_cons_of_mem cell hcell', hc'⟩

/-- On a line stand the characters of its cells and separators, and spaces. -/
theorem mem_line {measure : Text → Nat} {ws : List Nat} {aligns : List Align} {separator : Text}
    {row : Row} {c : Char} (h : c ∈ line measure ws aligns separator row) :
    c = ' ' ∨ c ∈ separator ∨ ∃ cell ∈ row, c ∈ cell := by
  rcases Text.mem_join h with h | ⟨padded, hpadded, hc⟩
  · exact Or.inr (Or.inl h)
  · exact (mem_padRow hpadded hc).imp_right Or.inr

end Table

end LintReport
