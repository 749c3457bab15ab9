/-
  LintReport.Proofs.Text.Lookup — tables that are searched by name.

  Proved:
  - `mem_of_lookup`: what is found is in the table.
  - `lookup_iff_mem`: where each name finds its own value, that is all a lookup does.
-/

import LintReport.Text.Basic

namespace LintReport

variable {α β : Type} [BEq α] [LawfulBEq α] {table : List (α × β)} {key : α} {value : β}

theorem mem_of_lookup (h : table.lookup key = some value) : (key, value) ∈ table := by
  obtain ⟨before, after, rfl, -⟩ := List.lookup_eq_some_iff.mp h
  exact List.mem_append_right before List.mem_cons_self

/-- Where each key finds its own value, a lookup finds the members. -/
theorem lookup_iff_mem (own : ∀ m ∈ table, table.lookup m.1 = some m.2) :
    table.lookup key = some value ↔ (key, value) ∈ table :=
  ⟨mem_of_lookup, fun h => own _ h⟩

end LintReport
