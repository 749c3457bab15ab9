/-
  LintReport.Proofs.Report.Search — which two numbers of a line are found for its place.

  The place of a line is sought as a pattern is: digits, blanks and digits, from the left, each run as
  long as it can be, and shorter again where what follows it does not fit. Taking each run whole and
  never giving anything back finds the same. A run of digits that is given up in part is followed by
  a digit where a blank is sought, and a run of blanks by a blank where a digit is.

  Proved:
  - `places_cases`: the search that gives back, the one that does not, and the description by runs
    agree on every line.
  - `IsFirstIn.before_le`: no two such numbers begin further left.
  - `IsFirstIn.unique`: a line can be cut in one way only.
  - `first_place_joined`: these two numbers become one token, and all else in the line stays.
-/

import LintReport.Proofs.Report.Place
import Mathlib.Data.List.Basic
import Mathlib.Logic.ExistsUnique

namespace LintReport

open Terminal (Coloring Style)
open Text (IsRun StopsAt isDecimal isBlank)

namespace Text

/-- The run takes in all characters of its kind that stand next to it. -/
structure IsWholeRun (p : Char → Bool) (before run behind : Text) : Prop where
  isRun : IsRun p run
  begins : ∀ c ∈ before.getLast?, p c = false
  stops : StopsAt p behind

theorem isWholeRun_iff {p : Char → Bool} {before run behind : Text} :
    IsWholeRun p before run behind ↔
      (run ≠ [] ∧ run.all p = true) ∧ before.getLast?.all (!p ·) = true ∧
        behind.head?.all (!p ·) = true := by
  simp only [List.all_eq_true, Option.all_eq_true, Bool.not_eq_true']
  exact ⟨fun h => ⟨h.isRun, h.begins, h.stops⟩, fun h => ⟨h.1, h.2.1, h.2.2⟩⟩

instance {p : Char → Bool} {before run behind : Text} :
    Decidable (IsWholeRun p before run behind) := decidable_of_iff _ isWholeRun_iff.symm

theorem IsRun.getLast?_of_apart {p q : Char → Bool} {s : Text} (h : IsRun q s)
    (apart : ∀ c, q c = true → p c = false) : ∀ c ∈ s.getLast?, p c = false :=
  fun c hc => apart c (h.2 c (List.mem_of_getLast? hc))

/-- A text begins with a whole run in one way only. -/
theorem eq_of_runs {p : Char → Bool} {run behind run' behind' : Text} (h : IsRun p run)
    (stops : StopsAt p behind) (h' : IsRun p run') (stops' : StopsAt p behind')
    (same : run ++ behind = run' ++ behind') : run = run' ∧ behind = behind' := by
  have runs : run = run' := by
    rw [← takeWhile_run h.2 stops, same, takeWhile_run h'.2 stops']
  subst runs
  exact ⟨rfl, List.append_cancel_left same⟩

/-! ## Ways to begin a text -/

/-- The ways to begin a text with a run of this kind, each with what follows it, the longest run
first. -/
def runs (p : Char → Bool) : Text → List (Text × Text)
  | [] => []
  | c :: s => if p c then (runs p s).map (fun (run, rest) => (c :: run, rest)) ++ [([c], s)] else []

theorem runs_of_stopsAt {p : Char → Bool} {s : Text} (h : StopsAt p s) : runs p s = [] := by
  cases s with
  | nil => rfl
  | cons c s => simp [runs, h c rfl]

theorem of_mem_runs {p : Char → Bool} {s run rest : Text} (h : (run, rest) ∈ runs p s) :
    IsRun p run ∧ s = run ++ rest := by
  induction s generalizing run with
  | nil => cases h
  | cons c s ih =>
    rw [runs] at h
    split at h
    · rename_i hc
      rcases List.mem_append.mp h with more | one
      · obtain ⟨⟨run', rest'⟩, longer, same⟩ := List.mem_map.mp more
        cases same
        obtain ⟨⟨-, all⟩, rfl⟩ := ih longer
        exact ⟨⟨List.cons_ne_nil c run', List.forall_mem_cons.mpr ⟨hc, all⟩⟩, rfl⟩
      · cases List.mem_singleton.mp one
        exact ⟨⟨List.cons_ne_nil c [], by simpa using hc⟩, rfl⟩
    · cases h

/-- The way that is tried first takes the run whole. -/
theorem head?_runs {p : Char → Bool} {run rest : Text} (h : IsRun p run) (stops : StopsAt p rest) :
    (runs p (run ++ rest)).head? = some (run, rest) := by
  obtain ⟨nonempty, all⟩ := h
  induction run with
  | nil => exact absurd rfl nonempty
  | cons c run ih =>
    obtain ⟨hc, all⟩ := List.forall_mem_cons.mp all
    rw [List.cons_append, runs, if_pos hc]
    cases run with
    | nil =>
      rw [List.nil_append, runs_of_stopsAt stops]
      rfl
    | cons d run =>
      rw [List.head?_append, List.head?_map, ih (List.cons_ne_nil d run) all]
      rfl

end Text

open Text (IsWholeRun runs)

namespace Section

structure Cut where
  before : Text
  first : Text
  gap : Text
  second : Text
  rest : Text
  deriving DecidableEq, Repr

/-- Somewhere in the text a digit stands before blanks, at least one, and a digit behind them. -/
def HoldsPair (s : Text) : Prop :=
  ∃ c gap d, isDecimal c = true ∧ IsRun isBlank gap ∧ isDecimal d = true ∧
    c :: (gap ++ [d]) <:+: s

theorem holdsPair_iff {s : Text} : HoldsPair s ↔ HoldsPlace s := by
  constructor
  · intro h
    obtain ⟨c, gap, d, hc, hgap, hd, inside⟩ := h
    exact ⟨_, ⟨[c], gap, [d], ⟨List.cons_ne_nil c [], by simpa⟩, hgap,
      ⟨List.cons_ne_nil d [], by simpa⟩, rfl⟩, inside⟩
  · intro h
    obtain ⟨p, ⟨first, gap, second, hfirst, hgap, hsecond, rfl⟩, inside⟩ := h
    obtain rfl | ⟨front, c, rfl⟩ := List.eq_nil_or_concat first
    · exact absurd rfl hfirst.1
    obtain ⟨d, back, rfl⟩ := List.exists_cons_of_ne_nil hsecond.1
    refine ⟨c, gap, d, hfirst.2 c (by simp), hgap, hsecond.2 d (by simp), ?_⟩
    exact List.IsInfix.trans ⟨front, back, by simp⟩ inside

namespace Cut

def joined (coloring : Coloring) (cut : Cut) : Text :=
  cut.before ++ (Style.dim.paint coloring (cut.first ++ ':' :: cut.second) ++ cut.rest)

def after (c : Char) (cut : Cut) : Cut := { cut with before := c :: cut.before }

/-- The line is cut at whole runs of digits, blanks and digits, the first such ones. -/
structure IsFirstIn (cut : Cut) (line : Text) : Prop where
  whole : line = cut.before ++ (cut.first ++ (cut.gap ++ (cut.second ++ cut.rest)))
  first : IsWholeRun isDecimal cut.before cut.first (cut.gap ++ (cut.second ++ cut.rest))
  gap : IsWholeRun isBlank cut.first cut.gap (cut.second ++ cut.rest)
  second : IsWholeRun isDecimal cut.gap cut.second cut.rest
  earliest : ¬ HoldsPair (cut.before ++ cut.first)

end Cut

/-! ## The first place -/

/-- A digit before a place only makes its first number longer. -/
theorem IsPlace.cons {p : Text} {c : Char} (h : IsPlace p) (digit : isDecimal c = true) :
    IsPlace (c :: p) := by
  obtain ⟨first, gap, second, hfirst, hgap, hsecond, rfl⟩ := h
  exact ⟨c :: first, gap, second,
    ⟨List.cons_ne_nil c first, List.forall_mem_cons.mpr ⟨digit, hfirst.2⟩⟩, hgap, hsecond, rfl⟩

theorem HoldsPlace.mono {s t : Text} (h : HoldsPlace s) (inside : s <:+: t) : HoldsPlace t := by
  obtain ⟨p, hp, within⟩ := h
  exact ⟨p, hp, within.trans inside⟩

/-- Where a place begins in front of a number, and none ends with the number, that number begins
further left. -/
theorem digits_of_place_begins {x first behind p : Text} (hfirst : IsRun isDecimal first)
    (none : ¬ HoldsPlace (x ++ first)) (place : IsPlace p) (begins : p <+: x ++ first ++ behind) :
    ∀ c ∈ x, isDecimal c = true := by
  rcases placeRule_cases .off (x ++ first ++ behind) with ⟨-, miss⟩ | ⟨_, _, _, _, found⟩
  · exact absurd begins (miss p place)
  · have ends : ∀ c ∈ (x ++ first).getLast?, isBlank c = false := by
      rw [List.getLast?_append_of_ne_nil _ hfirst.1]
      exact hfirst.getLast?_of_apart fun _ => not_isBlank_of_isDecimal
    rcases found.holdsPlace_or_within ends with ⟨more, eq⟩ | held
    · intro c hc
      refine found.isRun_first.2 c ?_
      rw [eq]
      exact List.mem_append_left more (List.mem_append_left first hc)
    · exact absurd held none

variable {s first gap second rest : Text}

/-- A place at the beginning of a line is the first. -/
theorem PlaceAt.isFirstIn (h : PlaceAt s first gap second rest) :
    Cut.IsFirstIn ⟨[], first, gap, second, rest⟩ s where
  whole := h.whole
  first := ⟨h.isRun_first, nofun,
    Text.stopsAt_of_run h.isRun_gap (fun _ => Text.not_isDecimal_of_isBlank) _⟩
  gap := ⟨h.isRun_gap, h.isRun_first.getLast?_of_apart fun _ => not_isBlank_of_isDecimal,
    Text.stopsAt_of_run h.isRun_second (fun _ => not_isBlank_of_isDecimal) _⟩
  second := ⟨h.isRun_second, h.isRun_gap.getLast?_of_apart fun _ => Text.not_isDecimal_of_isBlank,
    h.stops⟩
  earliest := fun held => not_holdsPlace_of_digits h.isRun_first.2 (holdsPair_iff.mp held)

namespace Cut.IsFirstIn

variable {cut cut' : Cut} {line : Text} {c : Char}

theorem isPlace (h : cut.IsFirstIn line) : IsPlace (cut.first ++ (cut.gap ++ cut.second)) :=
  ⟨_, _, _, h.first.isRun, h.gap.isRun, h.second.isRun, rfl⟩

theorem holdsPair (h : cut.IsFirstIn line) : HoldsPair line :=
  holdsPair_iff.mpr ⟨_, h.isPlace, cut.before, cut.rest, by rw [h.whole]; simp⟩

/-- A character at which no place begins may stand before the line. -/
theorem after (h : cut.IsFirstIn line) (none : ∀ p, IsPlace p → ¬ p <+: c :: line) :
    (cut.after c).IsFirstIn (c :: line) where
  whole := by
    rw [h.whole]
    rfl
  first := by
    refine ⟨h.first.isRun, ?_, h.first.stops⟩
    intro d hd
    by_cases start : cut.before = []
    · have same : c = d := by simpa [Cut.after, start] using hd
      subst same
      cases digit : isDecimal c with
      | false => rfl
      | true =>
        refine absurd ⟨cut.rest, ?_⟩ (none _ (h.isPlace.cons digit))
        rw [h.whole, start]
        simp
    · refine h.first.begins d ?_
      rwa [Cut.after, List.getLast?_cons_of_ne_nil start] at hd
  gap := h.gap
  second := h.second
  earliest := by
    rw [holdsPair_iff]
    intro held
    rcases holdsPlace_cons_iff.mp held with ⟨p, hp, begins⟩ | held
    · refine none p hp (begins.trans ?_)
      rw [h.whole, ← List.append_assoc]
      exact (List.prefix_cons_inj c).mpr (List.prefix_append _ _)
    · exact h.earliest (holdsPair_iff.mpr held)

/-- No two numbers with blanks between them begin further left. -/
theorem before_le (h : cut.IsFirstIn line) {a t p : Text} (whole : line = a ++ t)
    (place : IsPlace p) (begins : p <+: t) : cut.before.length ≤ a.length := by
  refine Nat.not_lt.mp fun far => ?_
  obtain ⟨x, between⟩ : a <+: cut.before :=
    List.prefix_of_prefix_length_le ⟨t, whole.symm⟩ ⟨_, h.whole.symm⟩ (Nat.le_of_lt far)
  have nonempty : x ≠ [] := by
    rintro rfl
    rw [← between, List.append_nil] at far
    exact Nat.lt_irrefl _ far
  have tail : t = x ++ cut.first ++ (cut.gap ++ (cut.second ++ cut.rest)) := by
    refine List.append_cancel_left (whole.symm.trans (h.whole.trans ?_))
    rw [← between]
    simp only [List.append_assoc]
  have none : ¬ HoldsPlace (x ++ cut.first) := by
    refine fun held => h.earliest (holdsPair_iff.mpr (held.mono ⟨a, [], ?_⟩))
    rw [← between]
    simp
  -- So the first number would begin further left.
  have digits := digits_of_place_begins h.first.isRun none place (tail ▸ begins)
  have last : x.getLast nonempty ∈ cut.before.getLast? := by
    rw [← between, List.getLast?_append_of_ne_nil _ nonempty]
    exact List.getLast?_eq_some_getLast nonempty
  have other := h.first.begins _ last
  rw [digits _ (List.getLast_mem nonempty)] at other
  cases other

/-- A line can be cut at its first place in one way only. -/
theorem unique (h : cut.IsFirstIn line) (h' : cut'.IsFirstIn line) : cut = cut' := by
  have begins (cut : Cut) : cut.first ++ (cut.gap ++ cut.second) <+:
      cut.first ++ (cut.gap ++ (cut.second ++ cut.rest)) := ⟨cut.rest, by simp⟩
  have le := h.before_le h'.whole h'.isPlace (begins cut')
  have ge := h'.before_le h.whole h.isPlace (begins cut)
  obtain ⟨before, tail⟩ := List.append_inj (h.whole.symm.trans h'.whole) (Nat.le_antisymm le ge)
  obtain ⟨first, tail⟩ :=
    Text.eq_of_runs h.first.isRun h.first.stops h'.first.isRun h'.first.stops tail
  obtain ⟨gap, tail⟩ := Text.eq_of_runs h.gap.isRun h.gap.stops h'.gap.isRun h'.gap.stops tail
  obtain ⟨second, rest⟩ :=
    Text.eq_of_runs h.second.isRun h.second.stops h'.second.isRun h'.second.stops tail
  cases cut
  cases cut'
  rw [Cut.mk.injEq]
  exact ⟨before, first, gap, second, rest⟩

end Cut.IsFirstIn

/-! ## The search as a pattern -/

/-- The ways to begin a text with digits, blanks and digits, in the order in which they are tried:
the longest run first everywhere, and the last run given up first. -/
def placesHere (s : Text) : List Cut :=
  (runs isDecimal s).flatMap fun (first, s) =>
    (runs isBlank s).flatMap fun (gap, s) =>
      (runs isDecimal s).map fun (second, rest) => ⟨[], first, gap, second, rest⟩

def places : Text → List Cut
  | [] => []
  | c :: s => placesHere (c :: s) ++ (places s).map (Cut.after c)

/-- Where no place begins nothing is tried with success. -/
theorem placesHere_eq_nil {s : Text} (none : ∀ p, IsPlace p → ¬ p <+: s) : placesHere s = [] := by
  refine List.eq_nil_iff_forall_not_mem.mpr fun cut h => ?_
  simp only [placesHere, List.mem_flatMap, List.mem_map] at h
  obtain ⟨⟨first, behind⟩, one, ⟨gap, further⟩, two, ⟨second, rest⟩, three, -⟩ := h
  obtain ⟨hfirst, rfl⟩ := Text.of_mem_runs one
  obtain ⟨hgap, rfl⟩ := Text.of_mem_runs two
  obtain ⟨hsecond, rfl⟩ := Text.of_mem_runs three
  exact none _ ⟨first, gap, second, hfirst, hgap, hsecond, rfl⟩ ⟨rest, by simp⟩

theorem head?_flatMap_of_head? {α β : Type} {f : α → List β} {xs : List α} {a : α} {b : β}
    (first : xs.head? = some a) (own : (f a).head? = some b) : (xs.flatMap f).head? = some b := by
  obtain ⟨xs, rfl⟩ := List.head?_eq_some_iff.mp first
  rw [List.flatMap_cons, List.head?_append, own]
  rfl

/-- Where a place begins its runs are the first to be tried, each of them whole. -/
theorem PlaceAt.head?_placesHere (h : PlaceAt s first gap second rest) :
    (placesHere s).head? = some ⟨[], first, gap, second, rest⟩ := by
  have isFirst := h.isFirstIn
  rw [h.whole]
  refine head?_flatMap_of_head? (Text.head?_runs h.isRun_first isFirst.first.stops) ?_
  refine head?_flatMap_of_head? (Text.head?_runs h.isRun_gap isFirst.gap.stops) ?_
  rw [List.head?_map, Text.head?_runs h.isRun_second h.stops]
  rfl

/-- On every line three agree: the search that gives back, the one that does not, and the
description by runs. They find nothing, or the same. -/
theorem places_cases (coloring : Coloring) (line : Text) :
    (places line = [] ∧ ¬ HoldsPair line) ∨
      ∃ cut : Cut, (places line).head? = some cut ∧ cut.IsFirstIn line ∧
        joinPlace coloring line = cut.joined coloring := by
  simp only [holdsPair_iff]
  induction line with
  | nil => exact .inl ⟨rfl, not_holdsPlace_nil⟩
  | cons c s ih =>
    rcases placeRule_cases coloring (c :: s) with ⟨miss, none⟩ | ⟨first, gap, second, rest, found⟩
    · have later : places (c :: s) = (places s).map (Cut.after c) := by
        rw [places, placesHere_eq_nil none, List.nil_append]
      rw [later, joinPlace_of_miss miss]
      rcases ih with ⟨nil, held⟩ | ⟨cut, head, isFirst, joined⟩
      · left
        rw [nil, holdsPlace_cons_iff]
        refine ⟨rfl, ?_⟩
        rintro (⟨p, hp, begins⟩ | inside)
        · exact none p hp begins
        · exact held inside
      · right
        refine ⟨cut.after c, ?_, isFirst.after none, ?_⟩
        · rw [List.head?_map, head]
          rfl
        · rw [joined]
          rfl
    · right
      refine ⟨⟨[], first, gap, second, rest⟩, ?_, found.isFirstIn, found.joinPlace_eq coloring⟩
      rw [places, List.head?_append, found.head?_placesHere]
      rfl

/-- A line without a digit that blanks and a digit follow stays as it is. Any other can be cut in
one way at its first place, which no other precedes and which a greedy search from the left finds
first. These two numbers become one dim token, and all that stands before and behind them stays. -/
theorem first_place_joined (coloring : Coloring) (line : Text) :
    (¬ HoldsPair line → places line = [] ∧ joinPlace coloring line = line) ∧
      (HoldsPair line → ∃! cut : Cut, cut.IsFirstIn line) ∧
      ∀ cut : Cut, cut.IsFirstIn line →
        joinPlace coloring line =
            cut.before ++ (Style.dim.paint coloring (cut.first ++ ':' :: cut.second) ++ cut.rest) ∧
          (places line).head? = some cut ∧
          ∀ a t p, line = a ++ t → IsPlace p → p <+: t → cut.before.length ≤ a.length := by
  rcases places_cases coloring line with ⟨nil, none⟩ | ⟨found, head, isFirst, joined⟩
  · exact ⟨fun _ => ⟨nil, joinPlace_of_not_holdsPlace (mt holdsPair_iff.mpr none)⟩,
      fun held => absurd held none, fun cut h => absurd h.holdsPair none⟩
  · refine ⟨fun none => absurd isFirst.holdsPair none,
      fun _ => ⟨found, isFirst, fun _ h => h.unique isFirst⟩, ?_⟩
    intro cut h
    obtain rfl := h.unique isFirst
    exact ⟨joined, head, fun _ _ _ whole place begins => h.before_le whole place begins⟩

/-- Numbers that no number follows, and a digit within a control sequence, are passed over; a number
behind the place stays. -/
theorem first_place_joined_behind_code :
    let line : Text := "7a 1\x1b[31m12 \u2003\uff13 45".toList
    let cut : Cut := ⟨"7a 1\x1b[31m".toList, "12".toList, " \u2003".toList, "\uff13".toList,
      " 45".toList⟩
    HoldsPair line ∧ (∃! cut : Cut, cut.IsFirstIn line) ∧ cut.IsFirstIn line ∧
      joinPlace .full line = "7a 1\x1b[31m\x1b[2m12:\uff13\x1b[22m 45".toList ∧
      ¬ HoldsPair cut.before ∧ joinPlace .full cut.before = cut.before := by
  intro line cut
  have clear : ∀ s : Text, joinPlace .off s = s → ¬ HoldsPair s :=
    fun s same => mt holdsPair_iff.mp (joinPlace_eq_self_iff.mp same)
  have isFirst : cut.IsFirstIn line :=
    { whole := rfl
      first := by decide
      gap := by decide
      second := by decide
      earliest := clear _ rfl }
  have none : ¬ HoldsPair cut.before := clear _ rfl
  obtain ⟨-, unique, joined⟩ := first_place_joined .full line
  exact ⟨isFirst.holdsPair, unique isFirst.holdsPair, isFirst, (joined cut isFirst).1, none,
    ((first_place_joined .full cut.before).1 none).2⟩

end Section

end LintReport
