/-
  LintReport.Text.Similarity — how much two texts have in common, and the names most like a word.

  The longest stretch that stands in both texts is matched first, the earliest of several; then
  what stands before it in both, and what stands behind it in both, in the same way. Two texts
  resemble each other if at least three fifths of their characters are matched. This is how the
  parser of the arguments, which is no part of the program, chooses the names it proposes.

  Proved:
  - `longestStretch_size_le`: the stretch lies within the text, so that what is left of it is shorter.
-/

import LintReport.Text.Basic

namespace LintReport.Text

def commonBeginning : Text → Text → Nat
  | a :: s, b :: t => if a = b then commonBeginning s t + 1 else 0
  | _, _ => 0

/-- A place in each of two texts, and how many characters from there on are the same. -/
structure Stretch where
  left : Nat := 0
  right : Nat := 0
  size : Nat := 0
  deriving DecidableEq, Repr

/-- The longest beginning of `s` that stands in a text, the first of several. -/
def longestBeginning (s : Text) : Text → Stretch
  | [] => {}
  | c :: t =>
    let here := commonBeginning s (c :: t)
    let later := longestBeginning s t
    if later.size ≤ here then { size := here } else { later with right := later.right + 1 }

/-- The longest stretch that stands in both texts: of several the first in `s`, and there the
first in `t`. -/
def longestStretch : Text → Text → Stretch
  | [], _ => {}
  | c :: s, t =>
    let here := longestBeginning (c :: s) t
    let later := longestStretch s t
    if later.size ≤ here.size then here else { later with left := later.left + 1 }

/-! ## The longest stretch -/

theorem commonBeginning_le_left (s t : Text) : commonBeginning s t ≤ s.length := by
  fun_induction commonBeginning s t <;> simp_all

theorem longestBeginning_left (s t : Text) : (longestBeginning s t).left = 0 := by
  induction t with
  | nil => rfl
  | cons c t ih =>
    rw [longestBeginning]
    split
    · rfl
    · exact ih

theorem longestBeginning_size (s t : Text) :
    (longestBeginning s t).size = commonBeginning s (t.drop (longestBeginning s t).right) := by
  fun_induction longestBeginning s t with
  | case1 => cases s <;> rfl
  | case2 => rfl
  | case3 c t here later h ih => simpa using ih

theorem longestStretch_size_le (s t : Text) :
    (longestStretch s t).left + (longestStretch s t).size ≤ s.length := by
  fun_induction longestStretch s t with
  | case1 => simp
  | case2 c s t here later h =>
    have := commonBeginning_le_left (c :: s) (t.drop (longestBeginning (c :: s) t).right)
    simpa [here, longestBeginning_left, longestBeginning_size] using this
  | case3 c s t here later h ih =>
    have : later.left + later.size ≤ s.length := ih
    simp only [List.length_cons]
    omega

/-! ## Matched characters -/

def matched (s t : Text) : Nat :=
  let m := longestStretch s t
  if 0 < m.size then
    matched (s.take m.left) (t.take m.right) + m.size
      + matched (s.drop (m.left + m.size)) (t.drop (m.right + m.size))
  else 0
termination_by s.length
decreasing_by
  all_goals
    have := longestStretch_size_le s t
    have : 0 < (longestStretch s t).size := ‹_›
    simp only [List.length_take, List.length_drop]
    omega

/-! ## Closest names -/

/-- At least three fifths of the characters of both texts are matched. -/
def resembles (s t : Text) : Bool := 3 * (s.length + t.length) ≤ 10 * matched s t

/-- Whether `s` has at least as large a part of its characters matched with `word` as `t` has. -/
def isCloser (word s t : Text) : Bool :=
  matched t word * (s.length + word.length) ≤ matched s word * (t.length + word.length)

/-- The names that resemble a word, at most `count` of them: the closest, and of names equally
close the last. -/
def closest (count : Nat) (word : Text) (names : List Text) : List Text :=
  let best := ((names.filter (resembles · word)).reverse.mergeSort (isCloser word)).take count
  names.filter (· ∈ best)

end LintReport.Text
