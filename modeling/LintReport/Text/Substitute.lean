/-
  LintReport.Text.Substitute — replacing pieces of a text, from the left and without overlap.

  A rule looks at the head of a text and either finds nothing there or a piece of at least one
  character with what is to stand in its place. `substitute` tries the rule at each position in
  turn; after a hit it goes on behind the piece, so a replacement is not looked at again.
  `substituteFirst` stops after one hit.

  Proved:
  - `substitute_of_hit` / `substitute_of_miss`: the two steps of a substitution.
  - `substitute_eq_self`: a rule that hits nowhere changes nothing.
  - `substitute_append` / `substituteFirst_append`: characters at which the rule never hits are
    passed over.
-/

import LintReport.Text.Basic

namespace LintReport.Text

/-- A piece found at the head of a text: one character and `more` after it, and what replaces
them. -/
structure Hit where
  more : Nat
  output : Text
  deriving DecidableEq, Repr

abbrev Rule := Text → Option Hit

/-- Skips so many characters, then substitutes in the rest. -/
def substituteFrom (rule : Rule) : Nat → Text → Text
  | _, [] => []
  | k + 1, _ :: cs => substituteFrom rule k cs
  | 0, c :: cs =>
    match rule (c :: cs) with
    | some hit => hit.output ++ substituteFrom rule hit.more cs
    | none => c :: substituteFrom rule 0 cs

def substitute (rule : Rule) (s : Text) : Text := substituteFrom rule 0 s

def substituteFirst (rule : Rule) : Text → Text
  | [] => []
  | c :: cs =>
    match rule (c :: cs) with
    | some hit => hit.output ++ cs.drop hit.more
    | none => c :: substituteFirst rule cs

def literal (piece replacement : Text) : Rule := fun s =>
  if piece ≠ [] ∧ piece.isPrefixOf s then some ⟨piece.length - 1, replacement⟩ else none

def replace (piece replacement s : Text) : Text := substitute (literal piece replacement) s

theorem substituteFrom_eq (rule : Rule) (k : Nat) (s : Text) :
    substituteFrom rule k s = substitute rule (s.drop k) := by
  induction s generalizing k with
  | nil => cases k <;> simp [substitute, substituteFrom]
  | cons c cs ih =>
    cases k with
    | zero => rfl
    | succ k => rw [substituteFrom, ih]; rfl

@[simp] theorem substitute_nil (rule : Rule) : substitute rule [] = [] := rfl

theorem substitute_of_hit {rule : Rule} {c : Char} {cs : Text} {hit : Hit}
    (h : rule (c :: cs) = some hit) :
    substitute rule (c :: cs) = hit.output ++ substitute rule (cs.drop hit.more) := by
  rw [substitute, substituteFrom, h]
  simp only [substituteFrom_eq]

theorem substitute_of_miss {rule : Rule} {c : Char} {cs : Text} (h : rule (c :: cs) = none) :
    substitute rule (c :: cs) = c :: substitute rule cs := by
  rw [substitute, substituteFrom, h]
  rfl

/-- A rule that hits at no position changes nothing. -/
theorem substitute_eq_self {rule : Rule} {s : Text} (h : ∀ t, t <:+ s → rule t = none) :
    substitute rule s = s := by
  induction s with
  | nil => rfl
  | cons c cs ih =>
    rw [substitute_of_miss (h _ List.suffix_rfl), ih]
    exact fun t ht => h t (ht.trans (List.suffix_cons c cs))

/-- Characters at which the rule hits in no text are passed over. -/
theorem substitute_append {rule : Rule} {s : Text} (h : ∀ c ∈ s, ∀ t, rule (c :: t) = none)
    (t : Text) : substitute rule (s ++ t) = s ++ substitute rule t := by
  induction s with
  | nil => rfl
  | cons c cs ih =>
    rw [List.cons_append, substitute_of_miss (h c List.mem_cons_self _),
      ih fun d hd => h d (List.mem_cons_of_mem c hd), List.cons_append]

theorem substituteFirst_of_hit {rule : Rule} {c : Char} {cs : Text} {hit : Hit}
    (h : rule (c :: cs) = some hit) :
    substituteFirst rule (c :: cs) = hit.output ++ cs.drop hit.more := by
  rw [substituteFirst, h]

theorem substituteFirst_of_miss {rule : Rule} {c : Char} {cs : Text} (h : rule (c :: cs) = none) :
    substituteFirst rule (c :: cs) = c :: substituteFirst rule cs := by
  rw [substituteFirst, h]

/-- Characters at which the rule hits in no text are passed over. -/
theorem substituteFirst_append {rule : Rule} {s : Text} (h : ∀ c ∈ s, ∀ t, rule (c :: t) = none)
    (t : Text) : substituteFirst rule (s ++ t) = s ++ substituteFirst rule t := by
  induction s with
  | nil => rfl
  | cons c cs ih =>
    rw [List.cons_append, substituteFirst_of_miss (h c List.mem_cons_self _),
      ih fun d hd => h d (List.mem_cons_of_mem c hd), List.cons_append]

end LintReport.Text
