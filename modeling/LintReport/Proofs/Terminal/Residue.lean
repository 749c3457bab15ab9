/-
  LintReport.Proofs.Terminal.Residue — what is left of a text without its control sequences.

  Sequences are removed in one pass from the left. The pass misses none of the text: a sequence
  holds no ESC but its first character, so that no two overlap. But where one is taken out the text
  closes up, and what stood on both sides may be a sequence now, behind the pass. So a sequence is
  left exactly where others had been put between its characters.

  Proved:
  - `exists_sequence_of_sequenceRule` / `sequenceRule_sequence_append`: the rule finds the complete
    sequences, whatever follows them.
  - `unstyled_eq_self_iff`: a text is left as it is exactly when it holds no sequence.
  - `fresh_of_not_isFinal`: characters that end no sequence are kept, whatever stands before them.
  - `holds_unstyled_iff`: what is left holds a sequence exactly when the text interrupts one.
  - `whole_iff`: no ESC is left exactly when each ESC of the text begins a complete sequence.
-/

import LintReport.Proofs.Terminal.Seam

namespace LintReport.Terminal

open Text (Hit)

/-! ## Complete sequences -/

theorem isParameter_iff {c : Char} : isParameter c = true ↔ 0x30 ≤ c.toNat ∧ c.toNat ≤ 0x3F := by
  simp only [isParameter, Bool.and_eq_true, decide_eq_true_eq]
  exact Iff.rfl

theorem isIntermediate_iff {c : Char} :
    isIntermediate c = true ↔ 0x20 ≤ c.toNat ∧ c.toNat ≤ 0x2F := by
  simp only [isIntermediate, Bool.and_eq_true, decide_eq_true_eq]
  exact Iff.rfl

theorem isFinal_iff {c : Char} : isFinal c = true ↔ 0x40 ≤ c.toNat ∧ c.toNat ≤ 0x7E := by
  simp only [isFinal, Bool.and_eq_true, decide_eq_true_eq]
  exact Iff.rfl

/-- A control sequence with nothing missing and nothing else. -/
def IsSequence (q : Text) : Prop :=
  ∃ (parameters intermediates : Text) (final : Char),
    (∀ c ∈ parameters, isParameter c = true) ∧ (∀ c ∈ intermediates, isIntermediate c = true) ∧
      isFinal final = true ∧ q = esc :: '[' :: (parameters ++ (intermediates ++ [final]))

theorem not_isParameter_of_isIntermediate {c : Char} (h : isIntermediate c = true) :
    isParameter c = false := by
  rw [isIntermediate_iff] at h
  rw [← Bool.not_eq_true, isParameter_iff]
  omega

theorem not_of_isFinal {c : Char} (h : isFinal c = true) :
    isParameter c = false ∧ isIntermediate c = false := by
  rw [isFinal_iff] at h
  rw [← Bool.not_eq_true, isParameter_iff, ← Bool.not_eq_true, isIntermediate_iff]
  omega

theorem isSequence_code (n : Nat) : IsSequence (code n) := by
  refine ⟨Text.Numeral.ofNat n, [], 'm', ?_, nofun, by decide, rfl⟩
  exact fun c hc => isParameter_of_isDigit (Text.Numeral.ofNat_isDigit hc)

theorem takeWhile_append_stop {p : Char → Bool} {s : Text} (hs : ∀ c ∈ s, p c = true) {d : Char}
    (hd : p d = false) (t : Text) : (s ++ d :: t).takeWhile p = s := by
  rw [List.takeWhile_append_of_pos hs]
  simp [hd]

/-- The rule finds a complete sequence, whatever follows it. -/
theorem sequenceRule_sequence_append {q : Text} (h : IsSequence q) (t : Text) :
    sequenceRule (q ++ t) = some ⟨q.length - 1, []⟩ := by
  obtain ⟨parameters, intermediates, final, hp, hi, hf, rfl⟩ := h
  obtain ⟨noParameter, noIntermediate⟩ := not_of_isFinal hf
  have second : (intermediates ++ final :: t).takeWhile isIntermediate = intermediates :=
    takeWhile_append_stop hi noIntermediate t
  have first : (parameters ++ (intermediates ++ final :: t)).takeWhile isParameter =
      parameters := by
    cases intermediates with
    | nil => exact takeWhile_append_stop hp noParameter t
    | cons c cs =>
      have other := not_isParameter_of_isIntermediate (hi c List.mem_cons_self)
      exact takeWhile_append_stop hp other _
  simp [sequenceRule, first, second, hf]
  omega

/-- What the rule finds is a complete sequence. -/
theorem exists_sequence_of_sequenceRule {t : Text} {hit : Hit} (h : sequenceRule t = some hit) :
    ∃ q s, IsSequence q ∧ t = q ++ s := by
  match t with
  | [] => cases h
  | [_] => cases h
  | c :: d :: rest =>
    have parameters := List.prefix_iff_eq_append.mp (List.takeWhile_prefix (l := rest) isParameter)
    let behind := rest.drop (rest.takeWhile isParameter).length
    have intermediates :=
      List.prefix_iff_eq_append.mp (List.takeWhile_prefix (l := behind) isIntermediate)
    simp only [sequenceRule] at h
    split at h
    · rename_i opened
      obtain ⟨rfl, rfl⟩ := opened
      split at h
      · rename_i final found
        obtain ⟨s, found⟩ := List.head?_eq_some_iff.mp found
        split at h
        · rename_i last
          refine ⟨esc :: '[' :: (rest.takeWhile isParameter
            ++ (behind.takeWhile isIntermediate ++ [final])), s,
            ⟨_, _, final, ?_, ?_, last, rfl⟩, ?_⟩
          · exact List.all_eq_true.mp List.all_takeWhile
          · exact List.all_eq_true.mp List.all_takeWhile
          · rw [found] at intermediates
            simp only [List.cons_append, List.append_assoc, List.nil_append, intermediates]
            rw [parameters]
        · cases h
      · cases h
    · cases h

/-- Of two complete sequences at the head of a text neither is the longer. -/
theorem eq_nil_of_isSequence_append {q s : Text} (hq : IsSequence q) (h : IsSequence (q ++ s)) :
    s = [] := by
  have short := sequenceRule_sequence_append hq s
  have long := sequenceRule_sequence_append h []
  rw [List.append_nil, short] at long
  obtain ⟨parameters, intermediates, final, -, -, -, rfl⟩ := hq
  simp at long
  exact long

theorem exists_tail_of_isSequence {q : Text} (h : IsSequence q) : ∃ s, q = esc :: s ∧ esc ∉ s := by
  obtain ⟨parameters, intermediates, final, hp, hi, hf, rfl⟩ := h
  refine ⟨_, rfl, ?_⟩
  intro escape
  simp only [List.mem_cons, List.mem_append, List.not_mem_nil, or_false] at escape
  rcases escape with escape | escape | escape | escape
  · revert escape
    decide
  · exact absurd (hp _ escape) (by decide)
  · exact absurd (hi _ escape) (by decide)
  · rw [← escape] at hf
    exact absurd hf (by decide)

theorem exists_last_of_isSequence {q : Text} (h : IsSequence q) :
    ∃ final, isFinal final = true ∧ q.getLast? = some final := by
  obtain ⟨parameters, intermediates, final, -, -, hf, rfl⟩ := h
  refine ⟨final, hf, ?_⟩
  have cut : esc :: '[' :: (parameters ++ (intermediates ++ [final])) =
      (esc :: '[' :: (parameters ++ intermediates)) ++ [final] := by simp
  rw [cut, List.getLast?_concat]

/-- A sequence at the head of a text ends before characters that end none. -/
theorem IsSequence.ends_before {q s t w : Text} (hq : IsSequence q)
    (hw : ∀ c ∈ w, isFinal c = false) (cut : s ++ w = q ++ t) : ∃ x, s = q ++ x ∧ t = x ++ w := by
  rcases List.append_eq_append_iff.mp cut with ⟨x, rfl, eq⟩ | ⟨x, rfl, eq⟩
  · cases x with
    | nil => exact ⟨[], by simp, eq.symm⟩
    | cons d x =>
      -- The sequence would end in one of them.
      obtain ⟨final, last, ending⟩ := exists_last_of_isSequence hq
      rw [List.getLast?_append, List.getLast?_cons, Option.some_or] at ending
      have within : final ∈ d :: x := List.mem_of_getLast? (List.getLast?_cons.trans ending)
      rw [hw final (eq ▸ List.mem_append_left t within)] at last
      cases last
  · exact ⟨x, rfl, eq⟩

theorem unstyled_sequence_append {q : Text} (h : IsSequence q) (t : Text) :
    unstyled (q ++ t) = unstyled t := by
  have hit := sequenceRule_sequence_append h t
  obtain ⟨s, rfl, -⟩ := exists_tail_of_isSequence h
  rw [List.cons_append] at hit ⊢
  rw [unstyled, Text.substitute_of_hit hit]
  simp [unstyled]

theorem unstyled_cons_of_miss {c : Char} {t : Text} (h : sequenceRule (c :: t) = none) :
    unstyled (c :: t) = c :: unstyled t :=
  Text.substitute_of_miss h

/-- The pass over a text: each character either begins a complete sequence, which is removed, or is
kept. -/
@[elab_as_elim]
theorem scan_induction {motive : Text → Prop} (nil : motive [])
    (kept : ∀ c t, sequenceRule (c :: t) = none → motive t → motive (c :: t))
    (removed : ∀ q t, IsSequence q → motive t → motive (q ++ t)) (t : Text) : motive t := by
  induction hn : t.length using Nat.strongRecOn generalizing t with
  | ind n ih =>
    subst hn
    cases t with
    | nil => exact nil
    | cons c t =>
      cases rule : sequenceRule (c :: t) with
      | none => exact kept c t rule (ih t.length (by simp) t rfl)
      | some hit =>
        obtain ⟨q, s, hq, cut⟩ := exists_sequence_of_sequenceRule rule
        have shorter : s.length < (c :: t).length := by
          obtain ⟨q', rfl, -⟩ := exists_tail_of_isSequence hq
          rw [cut, List.length_append, List.length_cons]
          omega
        rw [cut]
        exact removed q s hq (ih s.length shorter s rfl)

/-! ## Texts without sequences -/

def Holds (t : Text) : Prop := ∃ q, IsSequence q ∧ q <:+: t

theorem esc_mem_of_holds {t : Text} (h : Holds t) : esc ∈ t := by
  obtain ⟨q, hq, found⟩ := h
  obtain ⟨s, rfl, -⟩ := exists_tail_of_isSequence hq
  exact found.mem List.mem_cons_self

theorem length_unstyled_le (t : Text) : (unstyled t).length ≤ t.length := by
  induction t using scan_induction with
  | nil => exact Nat.le_refl _
  | kept c t miss ih =>
    rw [unstyled_cons_of_miss miss]
    exact Nat.succ_le_succ ih
  | removed q t hq ih =>
    rw [unstyled_sequence_append hq, List.length_append]
    omega

/-- A text is left as it is exactly when it holds no sequence. -/
theorem unstyled_eq_self_iff {t : Text} : unstyled t = t ↔ ¬ Holds t := by
  constructor
  · intro same holds
    obtain ⟨q, hq, before, behind, rfl⟩ := holds
    have removed : unstyled (before ++ q ++ behind) = unstyled before ++ unstyled behind := by
      rw [← unstyled_sequence_append hq behind, List.append_assoc]
      obtain ⟨s, rfl, -⟩ := exists_tail_of_isSequence hq
      exact fresh_cons barrier_esc _ before
    have length := congrArg List.length (removed.symm.trans same)
    have := length_unstyled_le before
    have := length_unstyled_le behind
    obtain ⟨s, rfl, -⟩ := exists_tail_of_isSequence hq
    simp only [List.length_append, List.length_cons] at length
    omega
  · intro none
    refine Text.substitute_eq_self fun s hs => ?_
    cases rule : sequenceRule s with
    | none => rfl
    | some hit =>
      obtain ⟨q, x, hq, rfl⟩ := exists_sequence_of_sequenceRule rule
      exact absurd ⟨q, hq, (List.prefix_append q x).isInfix.trans hs.isInfix⟩ none

/-- No sequence goes on over characters that end none. -/
theorem fresh_of_not_isFinal {w : Text} (hw : ∀ c ∈ w, isFinal c = false) : Fresh w := by
  have alone : unstyled w = w := by
    refine unstyled_eq_self_iff.mpr fun holds => ?_
    obtain ⟨q, hq, before, behind, rfl⟩ := holds
    obtain ⟨final, last, ending⟩ := exists_last_of_isSequence hq
    have within : final ∈ before ++ q ++ behind :=
      List.mem_append_left _ (List.mem_append_right _ (List.mem_of_getLast? ending))
    rw [hw final within] at last
    cases last
  intro s
  rw [alone]
  induction s using scan_induction with
  | nil => exact alone
  | kept c t miss ih =>
    have miss' : sequenceRule (c :: (t ++ w)) = none := by
      cases rule : sequenceRule (c :: (t ++ w)) with
      | none => rfl
      | some hit =>
        obtain ⟨q, rest, hq, cut⟩ := exists_sequence_of_sequenceRule rule
        obtain ⟨x, whole, -⟩ := hq.ends_before (s := c :: t) hw cut
        rw [whole, sequenceRule_sequence_append hq] at miss
        cases miss
    rw [List.cons_append, unstyled_cons_of_miss miss', ih, unstyled_cons_of_miss miss]
    rfl
  | removed q t hq ih =>
    rw [List.append_assoc, unstyled_sequence_append hq, ih, unstyled_sequence_append hq]

/-! ## Interrupted sequences -/

/-- The second text is the first with complete sequences put before some of its characters. -/
inductive Spread : Text → Text → Prop
  | nil : Spread [] []
  | kept {s u : Text} (c : Char) (rest : Spread s u) : Spread (c :: s) (c :: u)
  | put {q u s : Text} {c : Char} (sequence : IsSequence q) (rest : Spread (c :: s) u) :
    Spread (c :: s) (q ++ u)

/-- A sequence stands somewhere in the text with others between its characters. -/
def Interrupted (t : Text) : Prop :=
  ∃ s u, IsSequence (esc :: s) ∧ Spread s u ∧ u ≠ s ∧ esc :: u <:+: t

theorem Interrupted.mono {s t : Text} (h : Interrupted s) (hst : s <:+: t) : Interrupted t := by
  obtain ⟨rest, u, sequence, spread, ne, found⟩ := h
  exact ⟨rest, u, sequence, spread, ne, found.trans hst⟩

/-- What is kept at the head of a text stood there with the removed sequences. -/
theorem exists_spread_of_prefix {s t : Text} (h : s <+: unstyled t) :
    ∃ u, Spread s u ∧ u <+: t := by
  induction t using scan_induction generalizing s with
  | nil =>
    obtain rfl := List.prefix_nil.mp h
    exact ⟨[], .nil, List.prefix_rfl⟩
  | kept c t miss ih =>
    rw [unstyled_cons_of_miss miss] at h
    cases s with
    | nil => exact ⟨[], .nil, List.nil_prefix⟩
    | cons d s =>
      obtain ⟨rfl, behind⟩ := List.cons_prefix_cons.mp h
      obtain ⟨u, spread, found⟩ := ih behind
      exact ⟨d :: u, .kept d spread, List.cons_prefix_cons.mpr ⟨rfl, found⟩⟩
  | removed q t hq ih =>
    rw [unstyled_sequence_append hq] at h
    cases s with
    | nil => exact ⟨[], .nil, List.nil_prefix⟩
    | cons d s =>
      obtain ⟨u, spread, found⟩ := ih h
      exact ⟨q ++ u, .put hq spread, (List.prefix_append_right_inj q).mpr found⟩

theorem interrupted_of_holds {t : Text} (h : Holds (unstyled t)) : Interrupted t := by
  induction t using scan_induction with
  | nil => exact absurd (esc_mem_of_holds h) List.not_mem_nil
  | kept c t miss ih =>
    rw [unstyled_cons_of_miss miss] at h
    obtain ⟨q, hq, found⟩ := h
    rcases List.infix_cons_iff.mp found with here | behind
    · obtain ⟨s, rfl, -⟩ := exists_tail_of_isSequence hq
      obtain ⟨rfl, rest⟩ := List.cons_prefix_cons.mp here
      obtain ⟨u, spread, found⟩ := exists_spread_of_prefix rest
      have start : esc :: u <+: esc :: t := List.cons_prefix_cons.mpr ⟨rfl, found⟩
      refine ⟨s, u, hq, spread, ?_, start.isInfix⟩
      -- Without anything between its characters the sequence would not have been kept.
      rintro rfl
      obtain ⟨x, whole⟩ := start
      rw [← whole, sequenceRule_sequence_append hq] at miss
      cases miss
    · exact (ih ⟨q, hq, behind⟩).mono (List.suffix_cons c t).isInfix
  | removed q t hq ih =>
    rw [unstyled_sequence_append hq] at h
    exact (ih h).mono (List.suffix_append q t).isInfix

theorem unstyled_spread_append {s u : Text} (h : Spread s u) (plain : esc ∉ s) (t : Text) :
    unstyled (u ++ t) = s ++ unstyled t := by
  induction h with
  | nil => rfl
  | kept c rest ih =>
    have ne : c ≠ esc := fun e => plain (e ▸ List.mem_cons_self)
    rw [List.cons_append, unstyled_cons_of_ne ne, ih fun m => plain (List.mem_cons_of_mem c m)]
    rfl
  | put sequence rest ih => rw [List.append_assoc, unstyled_sequence_append sequence, ih plain]

/-- The first sequence put into a text stands before one of its characters. -/
theorem Spread.exists_first {s u : Text} (h : Spread s u) (ne : u ≠ s) :
    ∃ before behind q rest, IsSequence q ∧ behind ≠ [] ∧ s = before ++ behind ∧
      u = before ++ (q ++ rest) := by
  induction h with
  | nil => exact absurd rfl ne
  | kept c rest ih =>
    obtain ⟨before, behind, q, x, hq, more, rfl, rfl⟩ := ih fun e => ne (e ▸ rfl)
    exact ⟨c :: before, behind, q, x, hq, more, rfl, rfl⟩
  | @put q u s c sequence rest _ => exact ⟨[], c :: s, q, u, sequence, nofun, rfl, rfl⟩

/-- An interrupted sequence is not found. -/
theorem sequenceRule_of_interrupted {s u : Text} (hs : IsSequence (esc :: s)) (h : Spread s u)
    (ne : u ≠ s) (t : Text) : sequenceRule (esc :: (u ++ t)) = none := by
  obtain ⟨before, behind, q, rest, hq, more, rfl, rfl⟩ := h.exists_first ne
  obtain ⟨x, rfl, -⟩ := exists_tail_of_isSequence hq
  -- What is put in begins with ESC, so that only the characters before it count.
  have cut : esc :: (before ++ (esc :: x ++ rest) ++ t) =
      esc :: before ++ esc :: (x ++ rest ++ t) := by simp
  rw [cut, sequenceRule_append_cons barrier_esc (List.cons_ne_nil _ _)]
  cases rule : sequenceRule (esc :: before) with
  | none => rfl
  | some hit =>
    obtain ⟨p, y, hp, whole⟩ := exists_sequence_of_sequenceRule rule
    rw [← List.cons_append, whole, List.append_assoc] at hs
    exact absurd (List.append_eq_nil_iff.mp (eq_nil_of_isSequence_append hp hs)).2 more

theorem holds_of_interrupted {t : Text} (h : Interrupted t) : Holds (unstyled t) := by
  obtain ⟨s, u, hs, spread, ne, before, behind, rfl⟩ := h
  have plain : esc ∉ s := by
    obtain ⟨s', same, plain⟩ := exists_tail_of_isSequence hs
    cases same
    exact plain
  refine ⟨esc :: s, hs, unstyled before, unstyled behind, ?_⟩
  calc unstyled before ++ esc :: s ++ unstyled behind
      = unstyled before ++ esc :: unstyled (u ++ behind) := by
        rw [unstyled_spread_append spread plain, List.append_assoc, List.cons_append]
    _ = unstyled before ++ unstyled (esc :: (u ++ behind)) := by
        rw [unstyled_cons_of_miss (sequenceRule_of_interrupted hs spread ne behind)]
    _ = unstyled (before ++ esc :: u ++ behind) := by
        rw [← fresh_cons barrier_esc, List.append_assoc, List.cons_append]

/-- What is left of a text holds a sequence exactly when the text interrupts one. -/
theorem holds_unstyled_iff {t : Text} : Holds (unstyled t) ↔ Interrupted t :=
  ⟨interrupted_of_holds, holds_of_interrupted⟩

/-! ## Texts of which no ESC is left -/

/-- Each ESC of the text begins a complete sequence. -/
inductive Whole : Text → Prop
  | nil : Whole []
  | plain {c : Char} {t : Text} (ne : c ≠ esc) (rest : Whole t) : Whole (c :: t)
  | sequence {q t : Text} (complete : IsSequence q) (rest : Whole t) : Whole (q ++ t)

/-- No ESC is left of a text exactly when each of them begins a complete sequence. -/
theorem whole_iff {t : Text} : Whole t ↔ esc ∉ unstyled t := by
  constructor
  · intro h
    induction h with
    | nil => exact List.not_mem_nil
    | plain ne rest ih =>
      rw [unstyled_cons_of_ne ne]
      exact List.not_mem_cons_of_ne_of_not_mem ne.symm ih
    | sequence complete rest ih => rwa [unstyled_sequence_append complete]
  · intro h
    induction t using scan_induction with
    | nil => exact .nil
    | kept c t miss ih =>
      rw [unstyled_cons_of_miss miss] at h
      exact .plain (fun e => h (e ▸ List.mem_cons_self)) (ih fun m => h (List.mem_cons_of_mem c m))
    | removed q t hq ih =>
      rw [unstyled_sequence_append hq] at h
      exact .sequence hq (ih h)

namespace Whole

variable {s t : Text}

theorem of_plain (h : esc ∉ t) : Whole t := by
  rw [whole_iff, unstyled_eq_self h]
  exact h

theorem append (hs : Whole s) (ht : Whole t) : Whole (s ++ t) := by
  induction hs with
  | nil => exact ht
  | plain ne rest ih => exact .plain ne ih
  | sequence complete rest ih =>
    rw [List.append_assoc]
    exact .sequence complete ih

theorem of_append_plain (hs : esc ∉ s) (h : Whole (s ++ t)) : Whole t := by
  rw [whole_iff, ended_of_plain hs t] at h
  exact whole_iff.mpr fun m => h (List.mem_append_right _ m)

/-- Characters that end no sequence can be cut off at the end. -/
theorem of_append {w : Text} (hw : ∀ c ∈ w, isFinal c = false) (h : Whole (s ++ w)) : Whole s := by
  generalize hst : s ++ w = t at h
  induction h generalizing s with
  | nil =>
    obtain ⟨rfl, -⟩ := List.append_eq_nil_iff.mp hst
    exact .nil
  | @plain c t ne rest ih =>
    cases s with
    | nil => exact .nil
    | cons d s =>
      obtain ⟨rfl, behind⟩ := List.cons_eq_cons.mp hst
      exact .plain ne (ih behind)
  | @sequence q t complete rest ih =>
    obtain ⟨x, rfl, behind⟩ := complete.ends_before hw hst
    exact .sequence complete (ih behind.symm)

/-- On both sides of a line feed stand texts of their own. -/
theorem append_lineFeed_iff : Whole (s ++ '\n' :: t) ↔ Whole s ∧ Whole t := by
  rw [whole_iff, fresh_cons barrier_lineFeed, unstyled_cons_of_ne (by decide), List.mem_append,
    List.mem_cons, whole_iff, whole_iff]
  simp [show esc ≠ '\n' by decide]

end Whole

end LintReport.Terminal
