/-
  LintReport.Text.Basic — texts as lists of characters, joined with a separator and cut at line
  feeds.

  Proved:
  - `join_lines`: the lines of a text, joined with line feeds, are the text.
  - `lines_unlines`: lines without line feeds are found again.
  - `lines_append`: two texts put together share one line, where they meet.
-/

namespace LintReport

abbrev Text := List Char

namespace Text

/-- What is asked of each character of a text is decided by going through the text, and not through
all characters there are. -/
instance decidableForallMem (p : Char → Prop) [DecidablePred p] (s : Text) :
    Decidable (∀ c ∈ s, p c) := List.decidableBAll p s

def join (sep : Text) : List Text → Text
  | [] => []
  | [p] => p
  | p :: q :: r => p ++ sep ++ join sep (q :: r)

/-- What stands between the line feeds; never the empty list. -/
def lines : Text → List Text
  | [] => [[]]
  | c :: cs =>
    if c = '\n' then [] :: lines cs
    else
      match lines cs with
      | [] => [[c]]
      | l :: ls => (c :: l) :: ls

def unlines (ls : List Text) : Text := join ['\n'] ls

theorem lines_ne_nil (s : Text) : lines s ≠ [] := by
  cases s with
  | nil => simp [lines]
  | cons c cs =>
    rw [lines]
    split
    · simp
    · split <;> simp

theorem join_cons (sep p : Text) {ps : List Text} (h : ps ≠ []) :
    join sep (p :: ps) = p ++ sep ++ join sep ps := by
  cases ps with
  | nil => exact absurd rfl h
  | cons q r => rfl

theorem mem_join {sep : Text} {ps : List Text} {c : Char} (h : c ∈ join sep ps) :
    c ∈ sep ∨ ∃ p ∈ ps, c ∈ p := by
  induction ps with
  | nil => cases h
  | cons p ps ih =>
    by_cases hps : ps = []
    · subst hps
      exact Or.inr ⟨p, List.mem_cons_self, h⟩
    · rw [join_cons sep p hps] at h
      rcases List.mem_append.mp h with h | h
      · exact (List.mem_append.mp h).elim (fun h => Or.inr ⟨p, List.mem_cons_self, h⟩) Or.inl
      · refine (ih h).imp_right ?_
        intro h
        obtain ⟨q, hq, hc⟩ := h
        exact ⟨q, List.mem_cons_of_mem p hq, hc⟩

theorem join_lines (s : Text) : unlines (lines s) = s := by
  induction s with
  | nil => rfl
  | cons c cs ih =>
    rw [lines]
    by_cases hc : c = '\n'
    · rw [if_pos hc, unlines, join_cons _ _ (lines_ne_nil cs)]
      simpa [unlines, hc] using ih
    · rw [if_neg hc]
      cases hl : lines cs with
      | nil => exact absurd hl (lines_ne_nil cs)
      | cons l ls =>
        cases ls with
        | nil => simpa [unlines, join, hl] using ih
        | cons l' ls => simpa [unlines, join, hl] using ih

theorem lines_of_not_mem {s : Text} (h : '\n' ∉ s) : lines s = [s] := by
  induction s with
  | nil => rfl
  | cons c cs ih =>
    have hc : c ≠ '\n' := fun e => h (e ▸ List.mem_cons_self)
    rw [lines, if_neg hc, ih fun m => h (List.mem_cons_of_mem c m)]

theorem lines_append_lineFeed {s : Text} (h : '\n' ∉ s) (t : Text) :
    lines (s ++ '\n' :: t) = s :: lines t := by
  induction s with
  | nil => simp [lines]
  | cons c cs ih =>
    have hc : c ≠ '\n' := fun e => h (e ▸ List.mem_cons_self)
    rw [List.cons_append, lines, if_neg hc, ih fun m => h (List.mem_cons_of_mem c m)]

/-- Lines without line feeds are found again. -/
theorem lines_unlines {ls : List Text} (hne : ls ≠ []) (h : ∀ l ∈ ls, '\n' ∉ l) :
    lines (unlines ls) = ls := by
  induction ls with
  | nil => exact absurd rfl hne
  | cons l ls ih =>
    have hl := h l List.mem_cons_self
    cases ls with
    | nil => exact lines_of_not_mem hl
    | cons l' ls =>
      have rest := ih (List.cons_ne_nil _ _) fun x hx => h x (List.mem_cons_of_mem l hx)
      rw [unlines, join, List.append_assoc, List.singleton_append, lines_append_lineFeed hl]
      exact congrArg (l :: ·) rest

/-- Two texts put together share one line, where they meet. -/
theorem lines_append (s t : Text) :
    lines (s ++ t) =
      (lines s).dropLast ++ ((lines s).getLast (lines_ne_nil s) ++ (lines t).headD []) ::
        (lines t).tail := by
  induction s with
  | nil =>
    cases ht : lines t with
    | nil => exact absurd ht (lines_ne_nil t)
    | cons l ls => simp [lines, ht]
  | cons c cs ih =>
    have hne := lines_ne_nil cs
    by_cases hc : c = '\n'
    · simp only [List.cons_append, lines, hc, if_true]
      rw [ih, List.dropLast_cons_of_ne_nil hne]
      simp [List.getLast_cons hne]
    · cases hl : lines cs with
      | nil => exact absurd hl hne
      | cons l ls =>
        cases ls with
        | nil => simp only [List.cons_append, lines, hc, if_false, ih]; simp [hl]
        | cons l' ls => simp only [List.cons_append, lines, hc, if_false, ih]; simp [hl]

end Text

end LintReport
