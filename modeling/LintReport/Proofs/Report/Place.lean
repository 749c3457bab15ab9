/-
  LintReport.Proofs.Report.Place — the two numbers of a place made one token.

  A search for two numbers with blanks between them looks at a line from the left, without knowing
  where the cells of its table begin. What it finds is told here by runs: texts of one or more
  characters, all of a kind.

  Proved:
  - `joinPlace_eq`: two runs of digits with a run of blanks between them are joined, when no digit
    stands before them and none follows.
  - `placeRule_cases`: the search finds something where two numbers begin, and nowhere else.
  - `joinPlace_eq_self_iff`: a line is left as it is when it has no two such numbers.
  - `prefix_joinPlace_append_iff`: the beginning of a line is left as it is when it has no two such
    numbers, whatever follows.
-/

import LintReport.Report.Section

namespace LintReport

open Terminal (Coloring Style)

namespace Text

def IsRun (p : Char → Bool) (s : Text) : Prop := s ≠ [] ∧ ∀ c ∈ s, p c = true

def StopsAt (p : Char → Bool) (s : Text) : Prop := ∀ c ∈ s.head?, p c = false

theorem takeWhile_run {p : Char → Bool} {s t : Text} (hs : ∀ c ∈ s, p c = true)
    (ht : StopsAt p t) : (s ++ t).takeWhile p = s := by
  rw [List.takeWhile_append_of_pos hs]
  cases t with
  | nil => simp
  | cons c t =>
    have hc : p c = false := ht c rfl
    simp [hc]

theorem stopsAt_of_run {p q : Char → Bool} {s : Text} (h : IsRun q s)
    (apart : ∀ c, q c = true → p c = false) (t : Text) : StopsAt p (s ++ t) := by
  obtain ⟨hne, hall⟩ := h
  cases s with
  | nil => exact absurd rfl hne
  | cons c s =>
    intro d hd
    cases hd
    exact apart c (hall c List.mem_cons_self)

/-- What begins with a run begins with a character of its kind. -/
theorem head_of_run {p : Char → Bool} {s t u : Text} {c : Char} (h : IsRun p s)
    (begins : s ++ t = c :: u) : p c = true := by
  obtain ⟨hne, hall⟩ := h
  cases s with
  | nil => exact absurd rfl hne
  | cons d s =>
    obtain ⟨rfl, -⟩ := List.cons_eq_cons.mp begins
    exact hall d List.mem_cons_self

end Text

open Text (IsRun StopsAt isDecimal isBlank)

namespace Section

/-- Characters other than digits begin no place. -/
theorem placeRule_of_not_isDecimal {coloring : Coloring} {c : Char} (h : isDecimal c = false)
    (t : Text) : placeRule coloring (c :: t) = none := by
  have : (c :: t).takeWhile isDecimal = [] := by simp [h]
  rw [placeRule, this]
  exact if_neg fun e => e.1 rfl

theorem not_isBlank_of_isDecimal {c : Char} (h : isDecimal c = true) : isBlank c = false := by
  cases blank : isBlank c with
  | false => rfl
  | true =>
    rw [Text.not_isDecimal_of_isBlank blank] at h
    cases h

theorem placeRule_eq (coloring : Coloring) {first gap second rest : Text}
    (hfirst : IsRun isDecimal first) (hgap : IsRun isBlank gap) (hsecond : IsRun isDecimal second)
    (hrest : StopsAt isDecimal rest) :
    placeRule coloring (first ++ (gap ++ (second ++ rest))) =
      some ⟨first.length + gap.length + second.length - 1,
        Style.dim.paint coloring (first ++ ':' :: second)⟩ := by
  have one : (first ++ (gap ++ (second ++ rest))).takeWhile isDecimal = first :=
    Text.takeWhile_run hfirst.2
      (Text.stopsAt_of_run hgap (fun _ => Text.not_isDecimal_of_isBlank) _)
  have two : (gap ++ (second ++ rest)).takeWhile isBlank = gap :=
    Text.takeWhile_run hgap.2 (Text.stopsAt_of_run hsecond (fun _ => not_isBlank_of_isDecimal) _)
  have three : (second ++ rest).takeWhile isDecimal = second := Text.takeWhile_run hsecond.2 hrest
  have behind : (first ++ (gap ++ (second ++ rest))).drop (first.length + gap.length) =
      second ++ rest := by
    rw [← List.drop_drop, List.drop_left, List.drop_left]
  simp only [placeRule, one, List.drop_left, two, behind, three]
  exact if_pos ⟨hfirst.1, hgap.1, hsecond.1⟩

/-- Two numbers with blanks between them are joined, when no digit stands before them and none
follows. -/
theorem joinPlace_eq (coloring : Coloring) {before first gap second rest : Text}
    (hbefore : ∀ c ∈ before, isDecimal c = false) (hfirst : IsRun isDecimal first)
    (hgap : IsRun isBlank gap) (hsecond : IsRun isDecimal second)
    (hrest : StopsAt isDecimal rest) :
    joinPlace coloring (before ++ (first ++ (gap ++ (second ++ rest)))) =
      before ++ (Style.dim.paint coloring (first ++ ':' :: second) ++ rest) := by
  have rule := placeRule_eq coloring hfirst hgap hsecond hrest
  rw [joinPlace, Text.substituteFirst_append fun c hc => placeRule_of_not_isDecimal (hbefore c hc)]
  congr 1
  cases first with
  | nil => exact absurd rfl hfirst.1
  | cons d first =>
    rw [List.cons_append] at rule ⊢
    rw [Text.substituteFirst_of_hit rule]
    congr 1
    have size : (d :: first).length + gap.length + second.length - 1 =
        first.length + (gap.length + second.length) := by
      simp only [List.length_cons]
      omega
    rw [size, ← List.drop_drop, List.drop_left, ← List.drop_drop, List.drop_left, List.drop_left]

/-! ## Lines without a place -/

/-- Two numbers with nothing but blanks between them. -/
def IsPlace (p : Text) : Prop :=
  ∃ first gap second, IsRun isDecimal first ∧ IsRun isBlank gap ∧ IsRun isDecimal second ∧
    p = first ++ (gap ++ second)

/-- Somewhere in the text two numbers stand with nothing but blanks between them. -/
def HoldsPlace (s : Text) : Prop := ∃ p, IsPlace p ∧ p <:+: s

/-- The text is a place and what follows it, the second number in full. -/
structure PlaceAt (s first gap second rest : Text) : Prop where
  isRun_first : IsRun isDecimal first
  isRun_gap : IsRun isBlank gap
  isRun_second : IsRun isDecimal second
  stops : StopsAt isDecimal rest
  whole : s = first ++ (gap ++ (second ++ rest))

theorem stopsAt_dropWhile (p : Char → Bool) (s : Text) : StopsAt p (s.dropWhile p) := by
  intro c hc
  have head := List.head?_dropWhile_not p s
  rw [Option.mem_def.mp hc] at head
  exact head

theorem isRun_takeWhile {p : Char → Bool} {s : Text} (h : s.takeWhile p ≠ []) :
    IsRun p (s.takeWhile p) := ⟨h, List.all_eq_true.mp List.all_takeWhile⟩

/-- The digits, blanks and digits that the search looks for are where it looks for them. -/
theorem pieces_begin (s : Text) :
    let first := s.takeWhile isDecimal
    let gap := (s.drop first.length).takeWhile isBlank
    let second := (s.drop (first.length + gap.length)).takeWhile isDecimal
    first ++ (gap ++ second) <+: s := by
  intro first gap second
  have front : first ++ s.drop first.length = s :=
    List.prefix_iff_eq_append.mp (List.takeWhile_prefix _)
  have middle : gap ++ s.drop (first.length + gap.length) = s.drop first.length := by
    rw [← List.drop_drop]
    exact List.prefix_iff_eq_append.mp (List.takeWhile_prefix _)
  have back : second <+: s.drop (first.length + gap.length) := List.takeWhile_prefix _
  calc first ++ (gap ++ second)
      <+: first ++ (gap ++ s.drop (first.length + gap.length)) :=
        (List.prefix_append_right_inj first).mpr ((List.prefix_append_right_inj gap).mpr back)
    _ = s := by rw [middle, front]

/-- The search finds something where two numbers begin, and nowhere else. -/
theorem placeRule_cases (coloring : Coloring) (s : Text) :
    (placeRule coloring s = none ∧ ∀ p, IsPlace p → ¬ p <+: s) ∨
      ∃ first gap second rest, PlaceAt s first gap second rest := by
  by_cases found : ∃ p, IsPlace p ∧ p <+: s
  · right
    obtain ⟨p, ⟨first, gap, second, hfirst, hgap, hsecond, rfl⟩, rest, rfl⟩ := found
    refine ⟨first, gap, second ++ rest.takeWhile isDecimal, rest.dropWhile isDecimal, hfirst, hgap,
      ⟨?_, ?_⟩, stopsAt_dropWhile _ _, ?_⟩
    · exact fun none => hsecond.1 (List.append_eq_nil_iff.mp none).1
    · intro c hc
      rcases List.mem_append.mp hc with hc | hc
      · exact hsecond.2 c hc
      · exact List.all_eq_true.mp List.all_takeWhile c hc
    · simp only [List.append_assoc, List.takeWhile_append_dropWhile]
  · left
    refine ⟨if_neg fun hit => found ?_, fun p hp begins => found ⟨p, hp, begins⟩⟩
    exact ⟨_, ⟨_, _, _, isRun_takeWhile hit.1, isRun_takeWhile hit.2.1, isRun_takeWhile hit.2.2,
      rfl⟩, pieces_begin s⟩

theorem IsPlace.ne_nil {p : Text} (h : IsPlace p) : p ≠ [] := by
  obtain ⟨first, gap, second, hfirst, -, -, rfl⟩ := h
  exact fun none => hfirst.1 (List.append_eq_nil_iff.mp none).1

theorem not_holdsPlace_nil : ¬ HoldsPlace [] := by
  intro h
  obtain ⟨p, hp, inside⟩ := h
  exact hp.ne_nil (List.infix_nil.mp inside)

theorem holdsPlace_cons_iff {c : Char} {s : Text} :
    HoldsPlace (c :: s) ↔ (∃ p, IsPlace p ∧ p <+: c :: s) ∨ HoldsPlace s := by
  simp only [HoldsPlace, List.infix_cons_iff, and_or_left, exists_or]

theorem joinPlace_of_miss {coloring : Coloring} {c : Char} {s : Text}
    (h : placeRule coloring (c :: s) = none) :
    joinPlace coloring (c :: s) = c :: joinPlace coloring s := Text.substituteFirst_of_miss h

theorem PlaceAt.joinPlace_eq {s first gap second rest : Text} (h : PlaceAt s first gap second rest)
    (coloring : Coloring) :
    joinPlace coloring s = Style.dim.paint coloring (first ++ ':' :: second) ++ rest := by
  rw [h.whole]
  exact @Section.joinPlace_eq coloring [] _ _ _ _ nofun h.isRun_first h.isRun_gap h.isRun_second
    h.stops

/-- Digits alone are no place. -/
theorem not_holdsPlace_of_digits {s : Text} (h : ∀ c ∈ s, isDecimal c = true) :
    ¬ HoldsPlace s := by
  intro held
  obtain ⟨p, ⟨first, gap, second, -, hgap, -, rfl⟩, inside⟩ := held
  obtain ⟨b, hb⟩ := List.exists_mem_of_ne_nil gap hgap.1
  have digit := h b (inside.mem (List.mem_append_right _ (List.mem_append_left _ hb)))
  rw [Text.not_isDecimal_of_isBlank (hgap.2 b hb)] at digit
  cases digit

/-- A line without two such numbers is left as it is. -/
theorem joinPlace_of_not_holdsPlace {coloring : Coloring} {s : Text} (h : ¬ HoldsPlace s) :
    joinPlace coloring s = s := by
  induction s with
  | nil => rfl
  | cons c s ih =>
    rw [holdsPlace_cons_iff, not_or] at h
    rcases placeRule_cases coloring (c :: s) with ⟨miss, -⟩ | ⟨first, gap, second, rest, found⟩
    · rw [joinPlace_of_miss miss, ih h.2]
    · refine absurd ⟨_, ⟨first, gap, second, found.isRun_first, found.isRun_gap, found.isRun_second,
        rfl⟩, rest, ?_⟩ h.1
      rw [found.whole, List.append_assoc, List.append_assoc]

/-- Where a text that goes on begins with a place, the text itself ends within the first number or
goes on with blanks behind it. -/
theorem PlaceAt.within_or_blank {s t first gap second rest : Text}
    (h : PlaceAt (s ++ t) first gap second rest) :
    (∃ more, first = s ++ more) ∨
      ∃ b behind, s = first ++ b :: behind ∧ isBlank b = true ∧
        gap ++ (second ++ rest) = b :: behind ++ t := by
  rcases List.append_eq_append_iff.mp h.whole with ⟨more, eq, -⟩ | ⟨behind, eq, rest_eq⟩
  · exact .inl ⟨more, eq⟩
  · cases behind with
    | nil => exact .inl ⟨[], by rw [eq, List.append_nil, List.append_nil]⟩
    | cons b behind =>
      exact .inr ⟨b, behind, eq, Text.head_of_run h.isRun_gap rest_eq, rest_eq⟩

/-- The beginning of a line is left as it is only when it has no two such numbers. -/
theorem not_holdsPlace_of_begins {s t : Text} (h : s <+: joinPlace .off (s ++ t)) :
    ¬ HoldsPlace s := by
  induction s with
  | nil => exact not_holdsPlace_nil
  | cons c s ih =>
    rcases placeRule_cases .off (c :: s ++ t) with ⟨miss, none⟩ | ⟨first, gap, second, rest, found⟩
    · rw [List.cons_append] at miss h
      rw [joinPlace_of_miss miss, List.prefix_cons_inj] at h
      rw [holdsPlace_cons_iff]
      intro held
      rcases held with ⟨p, hp, begins⟩ | held
      · exact none p hp (begins.trans (List.prefix_append _ t))
      · exact ih h held
    · rcases found.within_or_blank with ⟨more, eq⟩ | ⟨b, behind, eq, blank, -⟩
      · refine not_holdsPlace_of_digits fun d hd => found.isRun_first.2 d ?_
        rw [eq]
        exact List.mem_append_left more hd
      · -- Behind the first number there is a blank in the text and a colon in its place.
        rw [found.joinPlace_eq, Style.paint_off, eq, List.append_assoc,
          List.prefix_append_right_inj, List.cons_append, List.cons_prefix_cons] at h
        rw [h.1] at blank
        cases blank

/-- A text that ends in no blank goes on behind the blanks of a place that begins with it. -/
theorem PlaceAt.holdsPlace_or_within {s t first gap second rest : Text}
    (h : PlaceAt (s ++ t) first gap second rest) (ends : ∀ c ∈ s.getLast?, isBlank c = false) :
    (∃ more, first = s ++ more) ∨ HoldsPlace s := by
  rcases h.within_or_blank with within | ⟨b, behind, eq, -, rest_eq⟩
  · exact .inl within
  · have notBlank : ¬ ∀ c ∈ b :: behind, isBlank c = true := by
      intro blank
      have last : (b :: behind).getLast (List.cons_ne_nil b behind) ∈ s.getLast? := by
        rw [eq, List.getLast?_append, List.getLast?_eq_some_getLast (List.cons_ne_nil b behind)]
        rfl
      have other := ends _ last
      rw [blank _ (List.getLast_mem _)] at other
      cases other
    rcases List.append_eq_append_iff.mp rest_eq with ⟨tail, eq', tail_eq⟩ | ⟨more, gap_eq, -⟩
    · cases tail with
      | nil =>
        rw [List.append_nil] at eq'
        exact absurd (eq' ▸ h.isRun_gap.2) notBlank
      | cons e tail =>
        have digit : isDecimal e = true := Text.head_of_run h.isRun_second tail_eq
        have place : IsPlace (first ++ (gap ++ [e])) :=
          ⟨first, gap, [e], h.isRun_first, h.isRun_gap, ⟨List.cons_ne_nil e [], by simpa⟩, rfl⟩
        refine .inr ⟨_, place, ?_⟩
        rw [eq, eq']
        exact ⟨[], tail, by simp⟩
    · refine absurd (fun c hc => h.isRun_gap.2 c ?_) notBlank
      rw [gap_eq]
      exact List.mem_append_left more hc

/-- The beginning of a line that ends in no blank is left as it is exactly when it has no two such
numbers, whatever follows. -/
theorem prefix_joinPlace_append_iff {s : Text} (ends : ∀ c ∈ s.getLast?, isBlank c = false)
    (t : Text) : s <+: joinPlace .off (s ++ t) ↔ ¬ HoldsPlace s := by
  refine ⟨not_holdsPlace_of_begins, fun held => ?_⟩
  induction s with
  | nil => exact List.nil_prefix
  | cons c s ih =>
    rcases placeRule_cases .off (c :: s ++ t) with ⟨miss, -⟩ | ⟨first, gap, second, rest, found⟩
    · rw [holdsPlace_cons_iff, not_or] at held
      rw [List.cons_append] at miss ⊢
      rw [joinPlace_of_miss miss, List.prefix_cons_inj]
      refine ih (fun d hd => ends d ?_) held.2
      rw [List.getLast?_cons, Option.mem_def.mp hd]
      rfl
    · rcases found.holdsPlace_or_within ends with ⟨more, eq⟩ | inside
      · rw [found.joinPlace_eq, Style.paint_off, eq, List.append_assoc, List.append_assoc]
        exact List.prefix_append _ _
      · exact absurd inside held

/-- A line is left as it is exactly when it has no two such numbers. -/
theorem joinPlace_eq_self_iff {s : Text} : joinPlace .off s = s ↔ ¬ HoldsPlace s := by
  refine ⟨fun same => ?_, joinPlace_of_not_holdsPlace⟩
  refine @not_holdsPlace_of_begins s [] ?_
  simp only [List.append_nil, same, List.prefix_rfl]

/-- A token has no characters but those of its place and a colon. -/
theorem mem_joinPlace {s : Text} {c : Char} (h : c ∈ joinPlace .off s) : c ∈ s ∨ c = ':' := by
  induction s with
  | nil => cases h
  | cons d s ih =>
    rcases placeRule_cases .off (d :: s) with ⟨miss, -⟩ | ⟨first, gap, second, rest, found⟩
    · rw [joinPlace_of_miss miss] at h
      rcases List.mem_cons.mp h with rfl | h
      · exact .inl List.mem_cons_self
      · exact (ih h).imp_left (List.mem_cons_of_mem d)
    · rw [found.joinPlace_eq, Style.paint_off] at h
      rw [found.whole]
      simp only [List.mem_append, List.mem_cons] at h ⊢
      rcases h with (h | h | h) | h <;> simp [h]

end Section

end LintReport
