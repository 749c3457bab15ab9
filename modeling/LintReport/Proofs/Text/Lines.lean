/-
  LintReport.Proofs.Text.Lines — the lines of texts that may hold line feeds themselves.

  Proved:
  - `lines_append_break`: a line feed between two texts parts their lines.
  - `lines_unlines_flatMap`: the lines of texts put together as lines are the lines of each of them.
  - `break_prefix_iff`: one text of two or more lines begins another when their first lines are the
    same and its rest begins the rest of the other.
-/

import LintReport.Text.Basic

namespace LintReport.Text

theorem lineFeed_not_mem_of_mem_lines {s l : Text} (h : l ∈ lines s) : '\n' ∉ l := by
  induction s generalizing l with
  | nil =>
    obtain rfl := List.mem_singleton.mp h
    exact List.not_mem_nil
  | cons c s ih =>
    rw [lines] at h
    split at h
    · rcases List.mem_cons.mp h with rfl | h
      · exact List.not_mem_nil
      · exact ih h
    · rename_i other
      cases found : lines s with
      | nil => exact absurd found (lines_ne_nil s)
      | cons first rest =>
        rw [found] at h ih
        rcases List.mem_cons.mp h with rfl | h
        · exact List.not_mem_cons_of_ne_of_not_mem (Ne.symm other) (ih List.mem_cons_self)
        · exact ih (List.mem_cons_of_mem first h)

/-- A line feed between two texts parts their lines. -/
theorem lines_append_break (s t : Text) : lines (s ++ '\n' :: t) = lines s ++ lines t := by
  induction s with
  | nil => simp [lines]
  | cons c s ih =>
    by_cases hc : c = '\n'
    · simp [lines, hc, ih]
    · cases found : lines s with
      | nil => exact absurd found (lines_ne_nil s)
      | cons first rest => simp [lines, hc, ih, found]

theorem unlines_cons (l : Text) {ls : List Text} (h : ls ≠ []) :
    unlines (l :: ls) = l ++ '\n' :: unlines ls := by
  rw [unlines, join_cons _ _ h, List.append_assoc]
  rfl

theorem unlines_append {ls ks : List Text} (hls : ls ≠ []) (hks : ks ≠ []) :
    unlines (ls ++ ks) = unlines ls ++ '\n' :: unlines ks := by
  induction ls with
  | nil => exact absurd rfl hls
  | cons l ls ih =>
    by_cases last : ls = []
    · rw [last]
      exact unlines_cons l hks
    · have more : ls ++ ks ≠ [] := fun none => last (List.append_eq_nil_iff.mp none).1
      rw [List.cons_append, unlines_cons l more, ih last, unlines_cons l last, List.append_assoc,
        List.cons_append]

/-- The lines of texts put together as lines are the lines of each of them. -/
theorem lines_unlines_flatMap {ts : List Text} (h : ts ≠ []) :
    lines (unlines ts) = ts.flatMap lines := by
  induction ts with
  | nil => exact absurd rfl h
  | cons t ts ih =>
    by_cases last : ts = []
    · subst last
      simp [unlines, join]
    · rw [unlines_cons t last, lines_append_break, ih last, List.flatMap_cons]

theorem unlines_flatMap {α : Type} {f : α → List Text} (h : ∀ x, f x ≠ []) (xs : List α) :
    unlines (xs.flatMap f) = unlines (xs.map fun x => unlines (f x)) := by
  induction xs with
  | nil => rfl
  | cons x xs ih =>
    cases xs with
    | nil => simp [unlines, join]
    | cons y ys =>
      have more : (y :: ys).flatMap f ≠ [] := by simp [h y]
      have others : (y :: ys).map (fun x => unlines (f x)) ≠ [] := by simp
      rw [List.flatMap_cons, unlines_append (h x) more, ih]
      exact (unlines_cons (unlines (f x)) others).symm

theorem infix_unlines_of_mem {l : Text} {ls : List Text} (h : l ∈ ls) : l <:+: unlines ls := by
  induction ls with
  | nil => cases h
  | cons k ls ih =>
    by_cases last : ls = []
    · rw [last, List.mem_singleton] at h
      rw [last, h]
      exact List.infix_rfl
    · rw [unlines_cons k last]
      rcases List.mem_cons.mp h with rfl | h
      · exact (List.prefix_append _ _).isInfix
      · exact (ih h).trans ((List.suffix_cons _ _).trans (List.suffix_append _ _)).isInfix

/-- The first lines of two texts are compared as a whole. -/
theorem break_prefix_iff {a b : Text} (ha : '\n' ∉ a) (hb : '\n' ∉ b) (s t : Text) :
    a ++ '\n' :: s <+: b ++ '\n' :: t ↔ a = b ∧ s <+: t := by
  induction a generalizing b with
  | nil =>
    cases b with
    | nil => simp
    | cons d b =>
      have other : '\n' ≠ d := fun same => hb (same ▸ List.mem_cons_self)
      simp [other]
  | cons c a ih =>
    cases b with
    | nil =>
      have other : c ≠ '\n' := fun same => ha (same ▸ List.mem_cons_self)
      simp [other]
    | cons d b =>
      have rest := @ih b (fun mem => ha (List.mem_cons_of_mem c mem))
        fun mem => hb (List.mem_cons_of_mem d mem)
      simp only [List.cons_append, List.cons_prefix_cons, rest, List.cons_eq_cons, and_assoc]

/-- A text without line feeds begins another one when it begins its first line. -/
theorem prefix_unlines_iff {a : Text} (ha : '\n' ∉ a) (b : Text) (bs : List Text) :
    a <+: unlines (b :: bs) ↔ a <+: b := by
  by_cases last : bs = []
  · rw [last]
    rfl
  · rw [unlines_cons b last]
    refine ⟨fun h => ?_, fun h => h.trans (List.prefix_append _ _)⟩
    rcases List.prefix_or_prefix_of_prefix h (List.prefix_append b _) with h | ⟨c, rfl⟩
    · exact h
    · rw [List.prefix_append_right_inj] at h
      rcases List.prefix_cons_iff.mp h with rfl | ⟨d, rfl, -⟩
      · simp only [List.append_nil, List.prefix_rfl]
      · exact absurd (List.mem_append_right b List.mem_cons_self) ha

end LintReport.Text
