/-
  LintReport.Proofs.Terminal.Seam — where texts meet, seen without their control sequences.

  Removing control sequences from two texts put together is not always removing them from each: a
  sequence may begin in one and end in the other. A barrier is a character that no sequence goes
  on over, like ESC itself and the line breaks. A text is fresh when no sequence that is open before
  it goes on in it, and ended when none is open behind it.

  Proved:
  - `fresh_cons`: a text that begins with a barrier is fresh.
  - `ended_append_code`: a text that ends in a numbered code is ended, whatever stands before it.
  - `unstyled_substitute`: a substitution whose hits begin with a barrier, are ended and show the
    same before and after cannot be seen.
-/

import LintReport.Terminal.Sequence

namespace LintReport.Terminal

open Text (Rule Hit substitute)

/-! ## Barriers -/

/-- No sequence goes on over the character. -/
def Barrier (c : Char) : Prop :=
  isParameter c = false ∧ isIntermediate c = false ∧ isFinal c = false

instance : DecidablePred Barrier := fun _ => inferInstanceAs (Decidable (_ ∧ _))

theorem barrier_esc : Barrier esc := by decide

theorem barrier_lineFeed : Barrier '\n' := by decide

theorem barrier_return : Barrier '\r' := by decide

theorem takeWhile_append_cons {p : Char → Bool} {c : Char} (h : p c = false) (s t : Text) :
    (s ++ c :: t).takeWhile p = s.takeWhile p := by
  induction s with
  | nil => simp [h]
  | cons d s ih => by_cases hd : p d = true <;> simp [hd, ih]

theorem drop_takeWhile_append (p : Char → Bool) (s t : Text) :
    (s ++ t).drop (s.takeWhile p).length = s.drop (s.takeWhile p).length ++ t :=
  List.drop_append_of_le_length (List.takeWhile_prefix p).length_le

/-- What stands behind a barrier does not matter for the sequence that begins before it. -/
theorem sequenceRule_append_cons {c : Char} (h : Barrier c) {s : Text} (hs : s ≠ []) (t : Text) :
    sequenceRule (s ++ c :: t) = sequenceRule s := by
  obtain ⟨hp, hi, hf⟩ := h
  match s with
  | [] => exact absurd rfl hs
  | [d] =>
    have hc : c ≠ '[' := by
      rintro rfl
      cases hf
    simp [sequenceRule, hc]
  | d :: e :: s =>
    simp only [List.cons_append, sequenceRule, takeWhile_append_cons hp, drop_takeWhile_append,
      takeWhile_append_cons hi]
    cases hd : (s.drop (s.takeWhile isParameter).length).drop
        ((s.drop (s.takeWhile isParameter).length).takeWhile isIntermediate).length with
    | nil => simp [hf]
    | cons f fs => simp

theorem more_le_of_sequenceRule {c : Char} {s : Text} {hit : Hit}
    (h : sequenceRule (c :: s) = some hit) : hit.more ≤ s.length ∧ hit.output = [] := by
  match s with
  | [] => cases h
  | d :: s =>
    simp only [sequenceRule] at h
    split at h
    · split at h
      · rename_i f hf
        split at h
        · cases h
          rw [List.drop_drop, List.head?_drop] at hf
          obtain ⟨hlt, -⟩ := List.getElem?_eq_some_iff.mp hf
          refine ⟨?_, rfl⟩
          simp only [List.length_cons]
          omega
        · cases h
      · cases h
    · cases h

/-! ## Fresh and ended texts -/

/-- No sequence goes on from before the text into it. -/
def Fresh (t : Text) : Prop := ∀ s, unstyled (s ++ t) = unstyled s ++ unstyled t

/-- No sequence goes on from the text into what follows. -/
def Ended (s : Text) : Prop := ∀ t, unstyled (s ++ t) = unstyled s ++ unstyled t

theorem unstyled_cons_of_ne {c : Char} (h : c ≠ esc) (s : Text) :
    unstyled (c :: s) = c :: unstyled s :=
  Text.substitute_of_miss (sequenceRule_of_ne h s)

/-- A text that begins with a barrier is fresh. -/
theorem fresh_cons {c : Char} (h : Barrier c) (t : Text) : Fresh (c :: t) := by
  intro s
  induction hn : s.length using Nat.strongRecOn generalizing s with
  | ind n ih =>
    subst hn
    cases s with
    | nil => rfl
    | cons d s =>
      have rule := sequenceRule_append_cons h (List.cons_ne_nil d s) t
      rw [List.cons_append] at rule ⊢
      cases hit : sequenceRule (d :: s) with
      | none =>
        rw [hit] at rule
        rw [unstyled, Text.substitute_of_miss rule, unstyled, Text.substitute_of_miss hit,
          List.cons_append]
        exact congrArg (d :: ·) (ih s.length (by simp) s rfl)
      | some found =>
        rw [hit] at rule
        have more := (more_le_of_sequenceRule hit).1
        rw [unstyled, Text.substitute_of_hit rule, unstyled, Text.substitute_of_hit hit,
          List.append_assoc, List.drop_append_of_le_length more]
        refine congrArg (found.output ++ ·) (ih (s.drop found.more).length ?_ _ rfl)
        simp only [List.length_drop, List.length_cons]
        omega

theorem fresh_nil : Fresh [] := by
  intro s
  simp [unstyled]

theorem fresh_code_append (n : Nat) (t : Text) : Fresh (code n ++ t) := fresh_cons barrier_esc _

theorem ended_nil : Ended [] := fun _ => rfl

theorem ended_append {s t : Text} (hs : Ended s) (ht : Ended t) : Ended (s ++ t) := by
  intro u
  rw [List.append_assoc, hs, ht, hs, List.append_assoc]

theorem unstyled_code (n : Nat) : unstyled (code n) = [] := by
  simpa [unstyled] using unstyled_code_append n []

theorem ended_code (n : Nat) : Ended (code n) := by
  intro t
  rw [unstyled_code_append, unstyled_code, List.nil_append]

/-- A text that ends in a numbered code is ended, whatever stands before it. -/
theorem ended_append_code (s : Text) (n : Nat) : Ended (s ++ code n) := by
  have fresh (t : Text) := fresh_code_append n t s
  intro t
  have alone := fresh []
  rw [List.append_nil] at alone
  rw [List.append_assoc, fresh, alone, List.append_assoc, ended_code]

/-- A text without ESC is ended. -/
theorem ended_of_plain {s : Text} (h : esc ∉ s) : Ended s := by
  intro t
  rw [unstyled_eq_self h]
  induction s with
  | nil => rfl
  | cons c s ih =>
    have hc : c ≠ esc := fun e => h (e ▸ List.mem_cons_self)
    rw [List.cons_append, unstyled_cons_of_ne hc, ih fun m => h (List.mem_cons_of_mem c m)]
    rfl

/-- A text that ends in a barrier other than ESC is ended. -/
theorem ended_concat {c : Char} (h : Barrier c) (hc : c ≠ esc) (s : Text) : Ended (s ++ [c]) := by
  intro t
  rw [List.append_assoc, List.singleton_append, fresh_cons h t s, fresh_cons h [] s,
    unstyled_cons_of_ne hc, unstyled_cons_of_ne hc, List.append_assoc]
  rfl

/-! ## Texts that show the same -/

structure Alike (s t : Text) : Prop where
  left : Ended s
  right : Ended t
  shown : unstyled s = unstyled t

theorem Alike.of_plain {s : Text} (h : esc ∉ s) : Alike s s :=
  ⟨ended_of_plain h, ended_of_plain h, rfl⟩

theorem Alike.append {s t u v : Text} (h : Alike s t) (h' : Alike u v) :
    Alike (s ++ u) (t ++ v) where
  left := ended_append h.left h'.left
  right := ended_append h.right h'.right
  shown := by rw [h.left, h.right, h.shown, h'.shown]

/-- Behind a barrier other than ESC nothing goes on, whatever the texts before it are. -/
theorem Alike.concat {c : Char} (hc : Barrier c) (hne : c ≠ esc) {s t : Text}
    (h : unstyled s = unstyled t) : Alike (s ++ [c]) (t ++ [c]) where
  left := ended_concat hc hne s
  right := ended_concat hc hne t
  shown := by rw [fresh_cons hc, fresh_cons hc, h]

theorem Alike.flatMap {α : Type} {f g : α → Text} {xs : List α} (h : ∀ x ∈ xs, Alike (f x) (g x)) :
    Alike (xs.flatMap f) (xs.flatMap g) := by
  induction xs with
  | nil => exact Alike.of_plain (by simp)
  | cons x xs ih =>
    rw [List.flatMap_cons, List.flatMap_cons]
    exact (h x List.mem_cons_self).append (ih fun y hy => h y (List.mem_cons_of_mem x hy))

/-! ## Substitutions that do not show -/

/-- Whatever the rule finds begins with a barrier, and neither it nor what takes its place is
joined with its surroundings; both show the same. -/
structure Unseen (rule : Rule) : Prop where
  barrier {c : Char} {s : Text} {hit : Hit} : rule (c :: s) = some hit → Barrier c
  fresh {c : Char} {s : Text} {hit : Hit} :
    rule (c :: s) = some hit → ∀ t, Fresh (hit.output ++ t)
  ended {c : Char} {s : Text} {hit : Hit} :
    rule (c :: s) = some hit → Ended hit.output ∧ Ended (c :: s.take hit.more)
  shown {c : Char} {s : Text} {hit : Hit} :
    rule (c :: s) = some hit → unstyled hit.output = unstyled (c :: s.take hit.more)

theorem unstyled_append_substitute {rule : Rule} (h : Unseen rule) (before s : Text) :
    unstyled (before ++ substitute rule s) = unstyled (before ++ s) := by
  induction hn : s.length using Nat.strongRecOn generalizing before s with
  | ind n ih =>
    subst hn
    cases s with
    | nil => rfl
    | cons c s =>
      cases hit : rule (c :: s) with
      | none =>
        rw [Text.substitute_of_miss hit, List.append_cons, List.append_cons before c s]
        exact ih s.length (by simp) (before ++ [c]) s rfl
      | some found =>
        obtain ⟨output, piece⟩ := h.ended hit
        have shorter : (s.drop found.more).length < (c :: s).length := by
          rw [List.length_drop, List.length_cons]
          omega
        have rest := ih (s.drop found.more).length shorter [] _ rfl
        simp only [List.nil_append] at rest
        calc unstyled (before ++ substitute rule (c :: s))
            = unstyled before ++ (unstyled found.output ++ unstyled (s.drop found.more)) := by
              rw [Text.substitute_of_hit hit, h.fresh hit _ before, output, rest]
          _ = unstyled before ++ unstyled ((c :: s.take found.more) ++ s.drop found.more) := by
              rw [piece, h.shown hit]
          _ = unstyled (before ++ (c :: s)) := by
              rw [List.cons_append, List.take_append_drop, fresh_cons (h.barrier hit) s before]

/-- A substitution that does not show. -/
theorem unstyled_substitute {rule : Rule} (h : Unseen rule) (s : Text) :
    unstyled (substitute rule s) = unstyled s :=
  unstyled_append_substitute h [] s

end LintReport.Terminal
