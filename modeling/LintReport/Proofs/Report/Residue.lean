/-
  LintReport.Proofs.Report.Residue — control sequences of paths, texts and rules in a report.

  Without colours all sequences in a report come from its files. On the way there the texts are cut
  and joined: the period of a text and the blanks at the end of a line go, cells are brought to the
  width of their column, and the two numbers of a place become one token. None of this breaks a
  sequence, since none ends in a period or a blank, and none has digits on both sides of blanks.

  Proved:
  - `joinPlace_sequence_append`: a place is not sought within a sequence.
  - `whole_render`: where each ESC of the files begins a complete sequence, so does each ESC of the
    printed text.
-/

import LintReport.Proofs.Report.Coloring
import LintReport.Proofs.Terminal.Residue

namespace LintReport

open Terminal
open Text (StopsAt isBlank isDecimal trimRight)

/-- Each ESC of the path, the texts and the rules begins a complete sequence there. -/
structure FileFindings.Whole (f : FileFindings) : Prop where
  path : Terminal.Whole f.path
  text : ∀ m ∈ f.findings, Terminal.Whole m.text
  rule : ∀ m ∈ f.findings, ∀ r, m.rule = some r → Terminal.Whole r

/-! ## Characters of sequences -/

theorem not_isDecimal_of_range {c : Char} (h : c.toNat < 0x30 ∨ 0x3A ≤ c.toNat)
    (h' : c.toNat < 0x660) : isDecimal c = false := by
  have far : ∀ z ∈ Text.zeros, z = 0x30 ∨ 0x660 ≤ z := by decide
  rw [← Bool.not_eq_true, Text.isDecimal_iff]
  rintro ⟨z, hz, low, high⟩
  rcases far z hz with rfl | far
  · omega
  · omega

theorem not_isBlank_of_range {c : Char} (h : 0x21 ≤ c.toNat) (h' : c.toNat < 0x85) :
    isBlank c = false := by
  have far : ∀ r ∈ Text.blanks, r.2 ≤ 0x20 ∨ 0x85 ≤ r.1 := by decide
  simp only [isBlank, Text.Ranges.has, List.any_eq_false, Bool.and_eq_true, decide_eq_true_eq]
  intro r hr within
  have := far r hr
  omega

theorem not_isFinal_of_isBlank {c : Char} (h : isBlank c = true) : isFinal c = false := by
  rw [← Bool.not_eq_true, isFinal_iff]
  intro final
  rw [not_isBlank_of_range (by omega) (by omega)] at h
  cases h

/-! ## Cutting and joining -/

namespace Text

theorem stopsAt_cons {p : Char → Bool} {c : Char} (h : p c = false) (t : Text) :
    StopsAt p (c :: t) := by
  intro d hd
  cases hd
  exact h

theorem stopsAt_dropWhile_append {p : Char → Bool} (s : Text) {t : Text} (ht : StopsAt p t) :
    StopsAt p (s.dropWhile p ++ t) := by
  have head := List.head?_dropWhile_not p s
  cases hs : s.dropWhile p with
  | nil => exact ht
  | cons c s' =>
    rw [hs] at head
    exact stopsAt_cons head _

theorem exists_trimRight_append (s : Text) :
    ∃ w, trimRight s ++ w = s ∧ ∀ c ∈ w, isBlank c = true := by
  induction s with
  | nil => exact ⟨[], rfl, nofun⟩
  | cons c s ih =>
    obtain ⟨w, whole, blank⟩ := ih
    rw [trimRight_cons]
    split
    · rename_i cut
      refine ⟨c :: s, rfl, List.forall_mem_cons.mpr ⟨cut.2, ?_⟩⟩
      exact (trimRight_eq_nil_iff s).mp cut.1
    · exact ⟨w, congrArg (c :: ·) whole, blank⟩

end Text

theorem whole_trimRight {s : Text} (h : Whole s) : Whole (trimRight s) := by
  obtain ⟨w, whole, blank⟩ := Text.exists_trimRight_append s
  rw [← whole] at h
  exact h.of_append fun c hc => not_isFinal_of_isBlank (blank c hc)

theorem whole_join {sep : Text} (plain : esc ∉ sep) {ps : List Text} (h : ∀ p ∈ ps, Whole p) :
    Whole (Text.join sep ps) := by
  induction ps with
  | nil => exact .nil
  | cons p ps ih =>
    have first := h p List.mem_cons_self
    have rest := ih fun q hq => h q (List.mem_cons_of_mem p hq)
    cases ps with
    | nil => exact first
    | cons q ps => exact (first.append (.of_plain plain)).append rest

theorem whole_of_mem_unlines {ls : List Text} (h : Whole (Text.unlines ls)) :
    ∀ l ∈ ls, Whole l := by
  induction ls with
  | nil => exact nofun
  | cons l ls ih =>
    cases ls with
    | nil => exact List.forall_mem_cons.mpr ⟨h, nofun⟩
    | cons l' ls =>
      rw [Text.unlines, Text.join, List.append_assoc, List.singleton_append,
        Whole.append_lineFeed_iff] at h
      exact List.forall_mem_cons.mpr ⟨h.1, ih h.2⟩

theorem whole_of_mem_lines {s : Text} (h : Whole s) : ∀ l ∈ Text.lines s, Whole l := by
  rw [← Text.join_lines s] at h
  exact whole_of_mem_unlines h

theorem whole_flatMap {α : Type} {f : α → Text} {xs : List α} (h : ∀ x ∈ xs, Whole (f x)) :
    Whole (xs.flatMap f) := by
  induction xs with
  | nil => exact .nil
  | cons x xs ih =>
    rw [List.flatMap_cons]
    exact (h x List.mem_cons_self).append (ih fun y hy => h y (List.mem_cons_of_mem x hy))

namespace Section

/-! ## Places -/

/-- There is no place where digits and blanks end without a second number. -/
theorem placeRule_eq_none (coloring : Coloring) {first gap rest : Text}
    (hfirst : ∀ c ∈ first, isDecimal c = true) (hgap : ∀ c ∈ gap, isBlank c = true)
    (digits : StopsAt isDecimal rest) (blanks : StopsAt isBlank rest) :
    placeRule coloring (first ++ (gap ++ rest)) = none := by
  have behind : StopsAt isDecimal (gap ++ rest) := by
    cases gap with
    | nil => exact digits
    | cons c gap => exact Text.stopsAt_cons (Text.not_isDecimal_of_isBlank (hgap c List.mem_cons_self)) _
  have one : (first ++ (gap ++ rest)).takeWhile isDecimal = first :=
    Text.takeWhile_run hfirst behind
  have two : (gap ++ rest).takeWhile isBlank = gap := Text.takeWhile_run hgap blanks
  have three : rest.takeWhile isDecimal = [] := Text.takeWhile_run (s := []) nofun digits
  have cut : (first ++ (gap ++ rest)).drop (first.length + gap.length) = rest := by
    rw [← List.drop_drop, List.drop_left, List.drop_left]
  simp only [placeRule, one, List.drop_left, two, cut, three]
  exact if_neg fun found => found.2.2 rfl

section

variable {parameters intermediates : Text} {final : Char}

/-- No place begins among the parameters of a sequence: what digits and blanks follow there end
before another digit. -/
theorem placeRule_parameters (coloring : Coloring)
    (hp : ∀ c ∈ parameters, isParameter c = true)
    (hi : ∀ c ∈ intermediates, isIntermediate c = true) (hf : isFinal final = true) (t : Text) :
    placeRule coloring (parameters ++ (intermediates ++ final :: t)) = none := by
  rw [isFinal_iff] at hf
  cases more : parameters.dropWhile isDecimal with
  | nil =>
    have all : parameters.takeWhile isDecimal = parameters := by
      have whole := List.takeWhile_append_dropWhile (p := isDecimal) (l := parameters)
      rwa [more, List.append_nil] at whole
    have apart : intermediates ++ final :: t =
        intermediates.takeWhile isBlank ++ (intermediates.dropWhile isBlank ++ final :: t) := by
      rw [← List.append_assoc, List.takeWhile_append_dropWhile]
    have noBlank : StopsAt isBlank (final :: t) :=
      Text.stopsAt_cons (not_isBlank_of_range (by omega) (by omega)) t
    have noDigit : StopsAt isDecimal (intermediates.dropWhile isBlank ++ final :: t) := by
      cases rest : intermediates.dropWhile isBlank with
      | nil => exact Text.stopsAt_cons (not_isDecimal_of_range (by omega) (by omega)) t
      | cons c cs =>
        have mem : c ∈ intermediates :=
          (List.dropWhile_suffix isBlank).mem (rest ▸ List.mem_cons_self)
        have range := isIntermediate_iff.mp (hi c mem)
        exact Text.stopsAt_cons (not_isDecimal_of_range (by omega) (by omega)) _
    rw [apart]
    refine placeRule_eq_none coloring ?_ (List.all_eq_true.mp List.all_takeWhile) noDigit
      (Text.stopsAt_dropWhile_append _ noBlank)
    rw [← all]
    exact List.all_eq_true.mp List.all_takeWhile
  | cons c cs =>
    have mem : c ∈ parameters := (List.dropWhile_suffix isDecimal).mem (more ▸ List.mem_cons_self)
    have range := isParameter_iff.mp (hp c mem)
    have noDigit : StopsAt isDecimal (parameters.dropWhile isDecimal) := by
      have stops := Text.stopsAt_dropWhile_append parameters (t := []) (p := isDecimal) nofun
      rwa [List.append_nil] at stops
    rw [more] at noDigit
    have apart : parameters = parameters.takeWhile isDecimal ++ c :: cs := by
      rw [← more, List.takeWhile_append_dropWhile]
    rw [apart, List.append_assoc]
    exact @placeRule_eq_none coloring _ [] _ (List.all_eq_true.mp List.all_takeWhile) nofun
      (Text.stopsAt_cons (noDigit c rfl) _)
      (Text.stopsAt_cons (not_isBlank_of_range (by omega) (by omega)) _)

end

/-- A place is not sought within a sequence. -/
theorem joinPlace_sequence_append (coloring : Coloring) {q : Text} (h : IsSequence q) (t : Text) :
    joinPlace coloring (q ++ t) = q ++ joinPlace coloring t := by
  obtain ⟨parameters, intermediates, final, hp, hi, hf, rfl⟩ := h
  have ending (c : Char) (hc : c ∈ intermediates ++ [final]) : isDecimal c = false := by
    rcases List.mem_append.mp hc with hc | hc
    · have range := isIntermediate_iff.mp (hi c hc)
      exact not_isDecimal_of_range (by omega) (by omega)
    · obtain rfl := List.mem_singleton.mp hc
      have range := isFinal_iff.mp hf
      exact not_isDecimal_of_range (by omega) (by omega)
  have inner : Text.substituteFirst (placeRule coloring)
      (parameters ++ (intermediates ++ final :: t)) =
        parameters ++ (intermediates ++ final :: joinPlace coloring t) := by
    induction parameters with
    | nil =>
      have passed := Text.substituteFirst_append
        (fun c hc => @placeRule_of_not_isDecimal coloring c (ending c hc)) t
      simpa [joinPlace] using passed
    | cons c parameters ih =>
      have miss := placeRule_parameters coloring hp hi hf t
      rw [List.cons_append] at miss ⊢
      rw [Text.substituteFirst_of_miss miss, ih fun d hd => hp d (List.mem_cons_of_mem c hd)]
      rfl
  have start : ∀ c ∈ [esc, '['], isDecimal c = false :=
    List.forall_mem_cons.mpr ⟨by decide, List.forall_mem_singleton.mpr (by decide)⟩
  have passed := Text.substituteFirst_append
    (fun c hc => @placeRule_of_not_isDecimal coloring c (start c hc))
    (parameters ++ (intermediates ++ final :: t))
  rw [inner] at passed
  simpa [joinPlace] using passed

theorem esc_not_mem_takeWhile {p : Char → Bool} (h : p esc = false) (s : Text) :
    esc ∉ s.takeWhile p := by
  intro mem
  have := List.all_eq_true.mp List.all_takeWhile esc mem
  rw [h] at this
  cases this

/-- A place that is found holds no ESC, and neither does its token. -/
theorem esc_not_mem_place {s : Text} {hit : Text.Hit} (h : placeRule .off s = some hit) :
    esc ∉ s.take (hit.more + 1) ∧ esc ∉ hit.output := by
  let first := s.takeWhile isDecimal
  let gap := (s.drop first.length).takeWhile isBlank
  let second := (s.drop (first.length + gap.length)).takeWhile isDecimal
  have noFirst : esc ∉ first := esc_not_mem_takeWhile (by decide) s
  have noGap : esc ∉ gap := esc_not_mem_takeWhile (by decide) _
  have noSecond : esc ∉ second := esc_not_mem_takeWhile (by decide) _
  simp only [placeRule] at h
  split at h
  · rename_i found
    cases h
    have size : first.length + gap.length + second.length - 1 + 1 =
        first.length + (gap.length + second.length) := by
      have : first.length ≠ 0 := fun empty => found.1 (List.length_eq_zero_iff.mp empty)
      omega
    have piece : s.take (first.length + (gap.length + second.length)) =
        first ++ (gap ++ second) := by
      have found := List.prefix_iff_eq_take.mp (pieces_begin s)
      rw [List.length_append, List.length_append] at found
      exact found.symm
    refine ⟨?_, ?_⟩
    · show esc ∉ s.take (first.length + gap.length + second.length - 1 + 1)
      rw [size, piece]
      exact List.not_mem_append noFirst (List.not_mem_append noGap noSecond)
    · have noColon : esc ∉ ':' :: second := List.not_mem_cons_of_ne_of_not_mem (by decide) noSecond
      exact List.not_mem_append noFirst noColon
  · cases h

theorem whole_joinPlace {s : Text} (h : Whole s) : Whole (joinPlace .off s) := by
  induction h with
  | nil => exact .nil
  | @plain c t ne rest ih =>
    cases found : placeRule .off (c :: t) with
    | none =>
      rw [joinPlace, Text.substituteFirst_of_miss found]
      exact .plain ne ih
    | some hit =>
      obtain ⟨noPiece, noToken⟩ := esc_not_mem_place found
      have whole : Whole ((c :: t).take (hit.more + 1) ++ t.drop hit.more) := by
        rw [← List.drop_succ_cons, List.take_append_drop]
        exact .plain ne rest
      rw [joinPlace, Text.substituteFirst_of_hit found]
      exact (Whole.of_plain noToken).append (whole.of_append_plain noPiece)
  | sequence complete rest ih =>
    rw [joinPlace_sequence_append .off complete]
    exact .sequence complete ih

/-! ## Sections -/

theorem whole_dropPeriod {s : Text} (h : Whole s) : Whole (dropPeriod s) := by
  unfold dropPeriod
  split
  · rename_i c rest reversed
    split
    · exact h
    · have whole : (c :: rest).reverse ++ ['.'] = s := by
        rw [← List.reverse_cons, ← reversed, List.reverse_reverse]
      rw [← whole] at h
      refine h.of_append fun d hd => ?_
      obtain rfl := List.mem_singleton.mp hd
      decide
  · exact h

theorem whole_row {m : Finding} (text : Whole m.text) (rule : ∀ r, m.rule = some r → Whole r) :
    ∀ cell ∈ row .off m, Whole cell := by
  have number (n : Int) : Whole (Text.Numeral.ofInt n) := .of_plain (ofInt_plain n).1
  have label : Whole (labelCell .off m) := .of_plain (labelName_plain (Label.ofFinding m)).1
  have last : Whole (ruleCell .off m) := by
    unfold ruleCell
    split
    · exact .nil
    · exact .nil
    · rename_i r _ named
      exact rule r named
  simp only [row, List.forall_mem_cons]
  exact ⟨.nil, number m.line, number m.column, label, whole_dropPeriod text, last,
    fun _ none => absurd none List.not_mem_nil⟩

theorem whole_padRow {measure : Text → Nat} {row : Table.Row} (h : ∀ cell ∈ row, Whole cell)
    (ws : List Nat) (aligns : List Align) :
    ∀ cell ∈ Table.padRow measure ws aligns row, Whole cell := by
  induction row generalizing ws aligns with
  | nil => exact nofun
  | cons cell row ih =>
    have first := h cell List.mem_cons_self
    have spaces (n : Nat) : Whole (List.replicate n ' ') :=
      .of_plain fun mem => absurd (List.eq_of_mem_replicate mem) (by decide)
    refine List.forall_mem_cons.mpr ⟨?_, ih (fun c hc => h c (List.mem_cons_of_mem cell hc)) _ _⟩
    unfold Table.pad
    split
    · exact first.append (spaces _)
    · exact (spaces _).append first

theorem whole_table {ms : List Finding} (text : ∀ m ∈ ms, Whole m.text)
    (rule : ∀ m ∈ ms, ∀ r, m.rule = some r → Whole r) : Whole (table .off ms) := by
  have grid : Whole (Table.render visibleLength aligns separator (ms.map (row .off))) := by
    refine whole_join (by decide) fun l hl => ?_
    obtain ⟨cells, hcells, rfl⟩ := List.mem_map.mp hl
    obtain ⟨m, hm, rfl⟩ := List.mem_map.mp hcells
    refine whole_trimRight (whole_join esc_not_mem_separator ?_)
    exact whole_padRow (whole_row (text m hm) (rule m hm)) _ _
  refine whole_join (by decide) fun l hl => ?_
  obtain ⟨line, hline, rfl⟩ := List.mem_map.mp hl
  exact whole_joinPlace (whole_of_mem_lines grid line hline)

theorem whole_ofFindings {path : Text} {ms : List Finding} (hpath : Whole path)
    (text : ∀ m ∈ ms, Whole m.text) (rule : ∀ m ∈ ms, ∀ r, m.rule = some r → Whole r) :
    Whole (ofFindings .off path ms) :=
  (((Whole.of_plain (by decide)).append hpath).append (.of_plain (by decide))).append
    (whole_table text rule)

end Section

/-! ## Reports -/

namespace Layout

theorem whole_body (kind : Finding → Bool) {files : List FileFindings}
    (h : ∀ f ∈ files, f.Whole) : Whole (body .off (ofKind kind files)) := by
  refine whole_flatMap fun e he => ?_
  obtain ⟨f, hf, entry⟩ := List.mem_filterMap.mp he
  unfold FileFindings.entryOf? at entry
  split at entry
  · cases entry
  · cases entry
    have shown {m : Finding} (hm : m ∈ f.findings.filter kind) := (List.mem_filter.mp hm).1
    exact Section.whole_ofFindings (h f hf).path (fun m hm => (h f hf).text m (shown hm))
      fun m hm => (h f hf).rule m (shown hm)

theorem whole_ruled {title body : Text} (plain : esc ∉ title) (h : Whole body) :
    Whole (Banner.ruled title body) := by
  refine Whole.append (.of_plain ?_) h
  exact List.not_mem_append (List.not_mem_append (List.not_mem_append (by decide) plain)
    (by decide)) (by decide)

theorem whole_text {files : List FileFindings} (h : ∀ f ∈ files, f.Whole) :
    Whole (text .off files) := by
  unfold text existingBlock newBlock
  split
  · exact (whole_body every h).append (.of_plain (by decide))
  · refine Whole.append ?_ ?_
    · split
      · exact (whole_ruled (by decide) (whole_body unmarked h)).append (.of_plain (by decide))
      · exact .nil
    · split
      · exact (whole_ruled (by decide) (whole_body marked h)).append (.of_plain (by decide))
      · exact .of_plain (by decide)

end Layout

theorem Summary.whole_lines (e : Emphasis) (c : Counts) : Whole (lines .off e c) := by
  have first : Whole (problemText c) := .of_plain (esc_not_mem_problemText c)
  refine first.append ?_
  split
  · exact Whole.of_plain (esc_not_mem_fixableText c)
  · exact .nil

/-- Where each ESC of the files begins a complete sequence, so does each ESC of the printed
text. -/
theorem whole_render {policy : Policy} {files : List FileFindings} {text : Text}
    (h : ∀ f ∈ files, f.Whole) (rendered : Run.render .off policy files = .ok text) :
    Whole text := by
  rw [Run.render_eq] at rendered
  split at rendered
  · rw [Report.render_eq, Layout.output_eq_text] at rendered
    split at rendered
    · cases rendered
      exact .nil
    · split at rendered
      · cases rendered
        exact (Layout.whole_text h).append (Summary.whole_lines _ _)
      · cases rendered
  · cases rendered

end LintReport
