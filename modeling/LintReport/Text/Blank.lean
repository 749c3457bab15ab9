/-
  LintReport.Text.Blank — blanks, and texts without the blanks at their ends.

  The blanks are the characters of Unicode that only separate: the spaces of every width, the line
  and paragraph separators, and the control characters that move the cursor or divide records.

  Proved:
  - `trimRight_append_blank`: blanks at the end make no difference.
  - `trimRight_concat`: a text that ends in another character is left as it is.
  - `trimRight_append`: what stands before a text that is not all blanks is not looked at.
-/

import LintReport.Text.Basic
import LintReport.Text.Range

namespace LintReport.Text

def blanks : Ranges :=
  [(0x9, 0xD), (0x1C, 0x20), (0x85, 0x85), (0xA0, 0xA0), (0x1680, 0x1680), (0x2000, 0x200A),
    (0x2028, 0x2029), (0x202F, 0x202F), (0x205F, 0x205F), (0x3000, 0x3000)]

def isBlank (c : Char) : Bool := blanks.has c.toNat

def trimLeft (s : Text) : Text := s.dropWhile isBlank

def trimRight : Text → Text
  | [] => []
  | c :: cs =>
    match trimRight cs with
    | [] => if isBlank c then [] else [c]
    | d :: ds => c :: d :: ds

def trim (s : Text) : Text := trimRight (trimLeft s)

theorem trimRight_of_blank {s : Text} (h : ∀ c ∈ s, isBlank c = true) : trimRight s = [] := by
  induction s with
  | nil => rfl
  | cons c cs ih => simp_all [trimRight]

theorem trimRight_cons (c : Char) (cs : Text) :
    trimRight (c :: cs) =
      if trimRight cs = [] ∧ isBlank c = true then [] else c :: trimRight cs := by
  rw [trimRight]
  cases trimRight cs with
  | nil => by_cases h : isBlank c = true <;> simp [h]
  | cons d ds => simp

theorem trimRight_append_blank (s : Text) {w : Text} (h : ∀ c ∈ w, isBlank c = true) :
    trimRight (s ++ w) = trimRight s := by
  induction s with
  | nil => exact trimRight_of_blank h
  | cons c cs ih => rw [List.cons_append, trimRight_cons, trimRight_cons, ih]

/-- A text that ends in a character that is no blank is left as it is. -/
theorem trimRight_concat (s : Text) {c : Char} (h : isBlank c = false) :
    trimRight (s ++ [c]) = s ++ [c] := by
  induction s with
  | nil => simp [trimRight, h]
  | cons d ds ih =>
    rw [List.cons_append, trimRight_cons, ih]
    simp

theorem trimRight_eq_self {s : Text} (h : ∀ c ∈ s.getLast?, isBlank c = false) :
    trimRight s = s := by
  rcases List.eq_nil_or_concat s with rfl | ⟨t, c, rfl⟩
  · rfl
  · rw [List.concat_eq_append] at h ⊢
    exact trimRight_concat t (h c (by simp))

theorem trimRight_eq_nil_iff (s : Text) : trimRight s = [] ↔ ∀ c ∈ s, isBlank c = true := by
  induction s with
  | nil => simp [trimRight]
  | cons c cs ih =>
    rw [trimRight_cons]
    by_cases h : trimRight cs = [] ∧ isBlank c = true
    · simp only [if_pos h, true_iff]
      intro d hd
      cases List.mem_cons.1 hd with
      | inl e => exact e ▸ h.2
      | inr m => exact ih.1 h.1 d m
    · simp only [if_neg h, reduceCtorEq, false_iff]
      intro hall
      exact h ⟨ih.2 fun d hd => hall d (List.mem_cons_of_mem _ hd), hall c List.mem_cons_self⟩

theorem trim_ne_nil {c : Char} (h : isBlank c = false) (cs : Text) : trim (c :: cs) ≠ [] := by
  have kept : trimLeft (c :: cs) = c :: cs := by
    rw [trimLeft, List.dropWhile_cons_of_neg (by rw [h]; exact Bool.false_ne_true)]
  rw [trim, kept, ne_eq, trimRight_eq_nil_iff]
  intro blank
  have first := blank c List.mem_cons_self
  rw [h] at first
  cases first

/-- What stands before a text that is not all blanks is not looked at. -/
theorem trimRight_append (s : Text) {t : Text} (h : trimRight t ≠ []) :
    trimRight (s ++ t) = s ++ trimRight t := by
  induction s with
  | nil => rfl
  | cons c cs ih =>
    have more : cs ++ trimRight t ≠ [] := fun e => h (List.append_eq_nil_iff.mp e).2
    rw [List.cons_append, trimRight_cons, ih, if_neg fun e => more e.1, List.cons_append]

theorem trimRight_append_of_trimmed {s : Text} (h : trimRight s = s) (t : Text) :
    trimRight (s ++ t) = s ++ trimRight t := by
  by_cases ht : trimRight t = []
  · rw [trimRight_append_blank s ((trimRight_eq_nil_iff t).mp ht), h, ht, List.append_nil]
  · exact trimRight_append s ht

theorem prefix_trimRight (s : Text) : trimRight s <+: s := by
  induction s with
  | nil => exact List.prefix_rfl
  | cons c cs ih =>
    rw [trimRight_cons]
    split
    · exact List.nil_prefix
    · exact (List.prefix_cons_inj c).mpr ih

end LintReport.Text
