/-
  LintReport.Proofs.Report.Roles — what each part of a printed report is shown in.

  A report is a sequence of spans, each with a role: a path, the place of a finding, its label, its
  rule, a line of the summary, or anything else, such as banners, texts and the spaces between
  columns. The role alone says which attributes the span is shown in.

  The codes around a span leave nothing set behind it. So a piece of the report is shown as its
  spans one by one, and pieces can be put together; the full resets around line breaks are left for
  the end, where they find nothing to clear.

  Proved:
  - `Shows.append`: pieces are shown one after the other as each is by itself.
  - `shows_lineOf` / `shows_text` / `shows_lines`: the spans of a line, of a layout and of a
    summary.
  - `render_shows`: each character of a printed report is shown in what its role says.
-/

import LintReport.Proofs.Report.Coloring
import LintReport.Proofs.Report.Filtering
import LintReport.Proofs.Report.Tally
import LintReport.Proofs.Terminal.Pen

namespace LintReport

open Terminal

/-! ## Spans -/

inductive Role where
  | path
  | place
  | label (error : Bool)
  | rule
  | summary (error : Bool)
  | other
  deriving DecidableEq, Repr

namespace Role

def color (error : Bool) : Nat := if error then 31 else 33

def pen : Role → Pen
  | path => { underline := true }
  | place => { dim := true }
  | label error => { color := some (color error) }
  | rule => { dim := true }
  | summary error => { bold := true, color := some (color error) }
  | other => Pen.plain

end Role

structure Span where
  role : Role
  text : Text
  deriving DecidableEq, Repr

namespace Span

def other (s : Text) : Span := ⟨.other, s⟩

def cells (spans : List Span) : List (Char × Pen) :=
  spans.flatMap fun span => span.text.map (·, span.role.pen)

def unlines : List (List Span) → List Span
  | [] => []
  | [line] => line
  | line :: next :: rest => line ++ other ['\n'] :: unlines (next :: rest)

end Span

/-- Printed, the text is shown as these spans, and what it sets it resets. -/
def Shows (s : Text) (spans : List Span) : Prop :=
  Draws Pen.device Pen.plain s Pen.plain (Span.cells spans)

namespace Shows

variable {s t : Text} {xs ys : List Span}

theorem nil : Shows [] [] := Draws.nil _

/-- Pieces are shown one after the other as each is by itself. -/
theorem append (h : Shows s xs) (h' : Shows t ys) : Shows (s ++ t) (xs ++ ys) := by
  rw [Shows, Span.cells, List.flatMap_append]
  exact Draws.append h h'

/-- A part of a line in the style of its role. -/
theorem painted {style : Style} {role : Role} (inks : style.Inks role.pen)
    (hs : ∀ c ∈ s, IsGlyph c) : Shows (style.paint .full s) [⟨role, s⟩] := by
  rw [Shows, Span.cells, List.flatMap_singleton]
  exact inks.draws hs

/-- A whole line in the style of its role. -/
theorem painted_line {style : Style} {role : Role} (inks : style.Inks role.pen)
    (hs : ∀ c ∈ s, IsGlyph c) :
    Shows (style.paint .full (s ++ ['\n'])) [⟨role, s⟩, .other ['\n']] := by
  rw [Shows, Span.cells, List.flatMap_cons, List.flatMap_singleton]
  exact inks.draws_line hs

/-- A text that is not painted, of any number of lines. -/
theorem other (h : ∀ c ∈ s, c = '\n' ∨ IsGlyph c) : Shows s [.other s] := by
  rw [Shows, Span.cells, List.flatMap_singleton]
  induction s with
  | nil => exact Draws.nil _
  | cons c s ih =>
    have rest := ih fun d hd => h d (List.mem_cons_of_mem c hd)
    rcases h c List.mem_cons_self with rfl | glyph
    · exact .feed rest
    · exact .glyph glyph rest

theorem other_of_glyphs (h : ∀ c ∈ s, IsGlyph c) : Shows s [.other s] :=
  other fun c hc => .inr (h c hc)

theorem lineFeed : Shows ['\n'] [.other ['\n']] := other (by decide)

theorem flatMap {α : Type} {f : α → Text} {g : α → List Span} {xs : List α}
    (h : ∀ x ∈ xs, Shows (f x) (g x)) : Shows (xs.flatMap f) (xs.flatMap g) := by
  induction xs with
  | nil => exact nil
  | cons x xs ih =>
    rw [List.flatMap_cons, List.flatMap_cons]
    exact (h x List.mem_cons_self).append (ih fun y hy => h y (List.mem_cons_of_mem x hy))

theorem unlines {α : Type} {f : α → Text} {g : α → List Span} {xs : List α}
    (h : ∀ x ∈ xs, Shows (f x) (g x)) :
    Shows (Text.unlines (xs.map f)) (Span.unlines (xs.map g)) := by
  unfold Text.unlines
  induction xs with
  | nil => exact nil
  | cons x xs ih =>
    have first := h x List.mem_cons_self
    have rest := ih fun y hy => h y (List.mem_cons_of_mem x hy)
    cases xs with
    | nil => exact first
    | cons y ys =>
      have joined := (first.append lineFeed).append rest
      rw [List.append_assoc (g x)] at joined
      exact joined

end Shows

/-! ## Styles -/

namespace Terminal.Style

theorem inks_underline : underline.Inks (Role.pen .path) := ⟨by decide, rfl, rfl⟩

theorem inks_dim_place : dim.Inks (Role.pen .place) := ⟨by decide, rfl, rfl⟩

theorem inks_dim_rule : dim.Inks (Role.pen .rule) := ⟨by decide, rfl, rfl⟩

end Terminal.Style

theorem Label.inks_style (m : Finding) :
    (Label.ofFinding m).style.Inks (Role.pen (.label m.isError)) := by
  unfold Label.ofFinding
  cases m.isError with
  | false => exact ⟨by decide, rfl, rfl⟩
  | true => exact ⟨by decide, rfl, rfl⟩

theorem Emphasis.inks_style (error : Bool) :
    (Emphasis.ofError error).style.Inks (Role.pen (.summary error)) := by
  cases error with
  | false => exact ⟨by decide, rfl, rfl⟩
  | true => exact ⟨by decide, rfl, rfl⟩

/-! ## Findings -/

/-- Text and rule stand on one line and hold no control sequence. -/
def Finding.Glyphs (m : Finding) : Prop :=
  (∀ c ∈ m.text, IsGlyph c) ∧ ∀ r ∈ m.rule, ∀ c ∈ r, IsGlyph c

instance : DecidablePred Finding.Glyphs := fun _ => inferInstanceAs (Decidable (_ ∧ _))

theorem Finding.Glyphs.plain {m : Finding} (h : m.Glyphs) : m.Plain :=
  ⟨plain_of_glyphs h.1, fun r hr => plain_of_glyphs (h.2 r hr)⟩

namespace Section

/-- The spans behind the label. The spaces that end a line without a rule are cut off. -/
def endSpans (ws : List Nat) (m : Finding) : List Span :=
  match m.rule with
  | none | some [] => [.other (Text.trimRight (message ws m))]
  | some rule => [.other (message ws m), ⟨.rule, rule⟩]

def lineSpans (ws : List Nat) (m : Finding) : List Span :=
  [.other (indent ws m), ⟨.place, lineNumber m ++ ':' :: columnNumber m⟩,
    .other (afterPlace ws m),
    ⟨.label m.isError, if m.isError then "error".toList else "warning".toList⟩]
    ++ endSpans ws m

def spans (path : Text) (ms : List Finding) : List Span :=
  [.other ['\n', '\n'], ⟨.path, path⟩, .other ['\n']]
    ++ Span.unlines (ms.map (lineSpans (widths ms)))

theorem isGlyph_filler {ws : List Nat} {j : Nat} {cell : Text} :
    ∀ c ∈ filler ws j cell, IsGlyph c := by
  intro c hc
  rw [eq_space_of_mem_filler hc]
  decide

theorem isGlyph_separator : ∀ c ∈ separator, IsGlyph c := by decide

theorem isGlyph_indent (ws : List Nat) (m : Finding) : ∀ c ∈ indent ws m, IsGlyph c :=
  List.forall_mem_append.mpr
    ⟨isGlyph_filler, List.forall_mem_append.mpr ⟨isGlyph_separator, isGlyph_filler⟩⟩

theorem isGlyph_afterPlace (ws : List Nat) (m : Finding) : ∀ c ∈ afterPlace ws m, IsGlyph c :=
  List.forall_mem_append.mpr ⟨isGlyph_filler, isGlyph_separator⟩

theorem isGlyph_message (ws : List Nat) {m : Finding} (h : m.Glyphs) :
    ∀ c ∈ message ws m, IsGlyph c := by
  have text : ∀ c ∈ dropPeriod m.text, IsGlyph c := fun c hc => h.1 c ((prefix_dropPeriod _).mem hc)
  simp only [message, List.forall_mem_append]
  exact ⟨isGlyph_filler, isGlyph_separator, text, isGlyph_filler, isGlyph_separator⟩

theorem isGlyph_place (m : Finding) :
    ∀ c ∈ lineNumber m ++ ':' :: columnNumber m, IsGlyph c :=
  List.forall_mem_append.mpr
    ⟨isGlyph_ofInt m.line, List.forall_mem_cons.mpr ⟨by decide, isGlyph_ofInt m.column⟩⟩

theorem shows_labelCell (m : Finding) :
    Shows (labelCell .full m)
      [⟨.label m.isError, if m.isError then "error".toList else "warning".toList⟩] := by
  have name : (Label.ofFinding m).name =
      if m.isError then "error".toList else "warning".toList := by
    unfold Label.ofFinding
    cases m.isError <;> rfl
  rw [labelCell, name]
  refine Shows.painted (Label.inks_style m) ?_
  split <;> decide

/-- A rule ends in a code, so nothing is cut off behind it. -/
theorem shows_end (ws : List Nat) {m : Finding} (h : m.Glyphs) :
    Shows (Text.trimRight (message ws m ++ ruleCell .full m)) (endSpans ws m) := by
  have text := isGlyph_message ws h
  have bare : Shows (Text.trimRight (message ws m ++ []))
      [.other (Text.trimRight (message ws m))] := by
    rw [List.append_nil]
    exact Shows.other_of_glyphs fun c hc => text c ((Text.prefix_trimRight _).mem hc)
  cases named : m.rule with
  | none => simpa only [ruleCell, endSpans, named] using bare
  | some rule =>
    cases rule with
    | nil => simpa only [ruleCell, endSpans, named] using bare
    | cons c rule =>
      have kept := Style.trimRight_append_paint (show Style.dim ≠ [] by decide) (message ws m)
        (c :: rule)
      simp only [ruleCell, endSpans, named, kept]
      exact (Shows.other_of_glyphs text).append (.painted Style.inks_dim_rule (h.2 _ named))

/-- The spans of the line of a finding. -/
theorem shows_lineOf (ws : List Nat) {m : Finding} (h : m.Glyphs) :
    Shows (lineOf .full ws m) (lineSpans ws m) := by
  have place := Shows.painted Style.inks_dim_place (isGlyph_place m)
  have behind := (Shows.other_of_glyphs (isGlyph_afterPlace ws m)).append
    ((shows_labelCell m).append (shows_end ws h))
  exact (Shows.other_of_glyphs (isGlyph_indent ws m)).append (place.append behind)

/-- The spans of a section. -/
theorem shows_ofFindings {path : Text} (hpath : ∀ c ∈ path, IsGlyph c) {ms : List Finding}
    (placed : ∀ m ∈ ms, m.Placed) (glyphs : ∀ m ∈ ms, m.Glyphs) :
    Shows (ofFindings .full path ms) (spans path ms) := by
  have heading := (Shows.painted Style.inks_underline hpath).append Shows.lineFeed
  have rows : Shows (table .full ms) (Span.unlines (ms.map (lineSpans (widths ms)))) := by
    rw [table_eq .full placed fun m hm => (glyphs m hm).plain]
    exact Shows.unlines fun m hm => shows_lineOf (widths ms) (glyphs m hm)
  have gap : Shows ['\n', '\n'] [.other ['\n', '\n']] := Shows.other (by decide)
  unfold ofFindings
  rw [List.append_assoc ['\n', '\n']]
  exact (gap.append heading).append rows

end Section

/-! ## Layouts -/

/-- The path and the findings of the file hold no control sequence and break no line. -/
def FileFindings.Glyphs (f : FileFindings) : Prop :=
  (∀ c ∈ f.path, IsGlyph c) ∧ ∀ m ∈ f.findings, m.Glyphs

instance : DecidablePred FileFindings.Glyphs := fun _ => inferInstanceAs (Decidable (_ ∧ _))

namespace Layout

def bodySpans (es : List Entry) : List Span := es.flatMap fun e => Section.spans e.path e.findings

/-- The spans of a banner and what stands under it. -/
def ruledSpans (title : Text) (body : List Span) : List Span :=
  .other (Banner.ruled title []) :: body

def existingSpans (files : List FileFindings) : List Span :=
  if ∃ f ∈ files, ∃ m ∈ f.findings, m.newLine = false then
    ruledSpans Banner.existingTitle (bodySpans (ofKind unmarked files)) ++ [.other " \n\n".toList]
  else []

/-- The spans of the block of the findings on new lines, or of the banner that there are none. -/
def newSpans (files : List FileFindings) : List Span :=
  if ∃ f ∈ files, ∃ m ∈ f.findings, m.newLine = true then
    ruledSpans Banner.newTitle (bodySpans (ofKind marked files)) ++ [.other "\n\n".toList]
  else ruledSpans Banner.nothingNewTitle [] ++ [.other "\n\n".toList]

def spans (files : List FileFindings) : List Span :=
  if ∃ f ∈ files, f.scope = some .lineOnly then
    bodySpans (ofKind every files) ++ [.other "\n\n".toList]
  else existingSpans files ++ newSpans files

variable {files : List FileFindings}

theorem shows_body (placed : ∀ f ∈ files, ∀ m ∈ f.findings, m.Placed)
    (glyphs : ∀ f ∈ files, f.Glyphs) (kind : Finding → Bool) :
    Shows (body .full (ofKind kind files)) (bodySpans (ofKind kind files)) := by
  refine Shows.flatMap fun e he => ?_
  obtain ⟨f, hf, path, sub⟩ := exists_of_mem_ofKind he
  rw [path]
  exact Section.shows_ofFindings (glyphs f hf).1 (fun m hm => placed f hf m (sub m hm))
    fun m hm => (glyphs f hf).2 m (sub m hm)

theorem shows_ruled {title s : Text} {xs : List Span}
    (banner : ∀ c ∈ Banner.ruled title [], c = '\n' ∨ IsGlyph c) (h : Shows s xs) :
    Shows (Banner.ruled title s) (ruledSpans title xs) := by
  rw [Banner.ruled_eq]
  exact (Shows.other banner).append h

/-- The spans of the report on some files. -/
theorem shows_text (placed : ∀ f ∈ files, ∀ m ∈ f.findings, m.Placed)
    (glyphs : ∀ f ∈ files, f.Glyphs) : Shows (text .full files) (spans files) := by
  have body := shows_body placed glyphs
  have gap : Shows "\n\n".toList [.other "\n\n".toList] := Shows.other (by decide)
  have wideGap : Shows " \n\n".toList [.other " \n\n".toList] := Shows.other (by decide)
  unfold text spans existingBlock existingSpans newBlock newSpans
  split
  · exact (body every).append gap
  · refine Shows.append ?_ ?_
    · split
      · exact (shows_ruled (by decide) (body unmarked)).append wideGap
      · exact Shows.nil
    · split
      · exact (shows_ruled (by decide) (body marked)).append gap
      · exact (shows_ruled (by decide) Shows.nil).append gap

end Layout

/-! ## Summaries -/

namespace Summary

/-- The spans of a summary: one for each line, with its line feed behind it. -/
def spans (error : Bool) (c : Counts) : List Span :=
  [⟨.summary error, (problemText c).dropLast⟩, .other ['\n']]
    ++ if c.Fixable then [⟨.summary error, (fixableText c).dropLast⟩, .other ['\n']] else []

/-- The spans of a summary. -/
theorem shows_lines (error : Bool) (c : Counts) :
    Shows (lines .full (.ofError error) c) (spans error c) := by
  have line {t : Text} (h : ∃ s, t = s ++ ['\n'] ∧ ∀ c ∈ s, IsGlyph c) :
      Shows ((Emphasis.ofError error).style.paint .full t)
        [⟨.summary error, t.dropLast⟩, .other ['\n']] := by
    obtain ⟨s, rfl, glyphs⟩ := h
    rw [List.dropLast_concat]
    exact Shows.painted_line (Emphasis.inks_style error) glyphs
  unfold lines spans
  refine (line (problemText_eq c)).append ?_
  split
  · exact line (fixableText_eq c)
  · exact Shows.nil

end Summary

/-! ## Reports -/

/-- Each character of a printed report is shown in what its role says: paths are underlined, places
and rules are dim, labels are red on errors and yellow on other findings, the summary is bold and
red if some finding is an error and bold and yellow otherwise, and nothing else has any attribute.
So it is for all findings with a place and without control sequences and line breaks; only numbers
that are too long to be written, in a place or a count, stand in the way of a report. -/
theorem render_shows {files : List FileFindings}
    (placed : ∀ f ∈ files, ∀ m ∈ f.findings, m.Placed) (glyphs : ∀ f ∈ files, f.Glyphs)
    {policy : Policy} (problems : 0 < (Run.report .full policy files).total) :
    let counts := (Run.report .full policy files).counts
    let error := (FileFindings.allFindings files).any (·.isError)
    (ShortPlaces files ∧ counts.Writable → ∃ text, Run.render .full policy files = .ok text ∧
      ∀ start, Pen.device.cells start text =
        Span.cells (Layout.spans files ++ Summary.spans error counts)) ∧
      (¬ (ShortPlaces files ∧ counts.Writable) →
        Run.render .full policy files = .error .tooLongToWrite) := by
  intro counts error
  have some : ¬ (Run.report .full policy files).total ≤ 0 := by omega
  have shows : Shows ((Run.report .full policy files).output ++
      Summary.lines .full (Run.report .full policy files).emphasis counts)
      (Layout.spans files ++ Summary.spans error counts) := by
    rw [Layout.output_eq_text, emphasis_report]
    exact (Layout.shows_text placed glyphs).append (Summary.shows_lines error counts)
  rw [Run.render_eq, Report.render_eq, if_neg some]
  refine ⟨fun writable => ?_, fun unwritable => ?_⟩
  · rw [if_pos writable.1]
    exact ⟨_, if_pos writable.2, fun start => Draws.cells_paint_reset shows start⟩
  · by_cases short : ShortPlaces files
    · rw [if_pos short]
      exact if_neg fun counts => unwritable ⟨short, counts⟩
    · exact if_neg short

/-- A file with an error on a new line and a warning without a rule, printed in two blocks. -/
theorem render_shows_blocks :
    let new : Finding :=
      { line := 3, column := 14, severity := .error, text := "bad.".toList,
        rule := some "no-x ".toList, newLine := true }
    let old : Finding := { line := 10, column := 2, text := "odd ".toList, fixable := true }
    let files : List FileFindings := [⟨"a.js".toList, [new, old], ⟨1, 1, 0, 1⟩, some .fullFile⟩]
    (∀ f ∈ files, f.Glyphs) ∧ 0 < (Run.report .full .sum files).total ∧
      ∃ text, Run.render .full .sum files = .ok text ∧
        ∀ start, Pen.device.cells start text = Span.cells
          [.other (Banner.ruled Banner.existingTitle []),
            .other "\n\n".toList, ⟨.path, "a.js".toList⟩, .other ['\n'],
            .other "  ".toList, ⟨.place, "10:2".toList⟩, .other "  ".toList,
            ⟨.label false, "warning".toList⟩, .other "  odd".toList, .other " \n\n".toList,
            .other (Banner.ruled Banner.newTitle []),
            .other "\n\n".toList, ⟨.path, "a.js".toList⟩, .other ['\n'],
            .other "  ".toList, ⟨.place, "3:14".toList⟩, .other "  ".toList,
            ⟨.label true, "error".toList⟩, .other "  bad  ".toList, ⟨.rule, "no-x ".toList⟩,
            .other "\n\n".toList,
            ⟨.summary true, "✖ 2 problems (1 error, 1 warning)".toList⟩, .other ['\n'],
            ⟨.summary true,
              "  0 errors and 1 warning potentially fixable with the `--fix` option.".toList⟩,
            .other ['\n']] := by
  intro new old files
  have placed : ∀ f ∈ files, ∀ m ∈ f.findings, m.Placed := by
    intro f hf m hm
    cases List.mem_singleton.mp hf
    simp only [List.mem_cons, List.not_mem_nil, or_false] at hm
    rcases hm with rfl | rfl <;> exact ⟨by decide, by decide⟩
  have glyphs : ∀ f ∈ files, f.Glyphs := by decide +kernel
  have problems : 0 < (Run.report .full .sum files).total := by decide +kernel
  obtain ⟨text, printed, shown⟩ := (render_shows placed glyphs problems).1 ⟨by decide +kernel, by decide +kernel⟩
  refine ⟨glyphs, problems, text, printed, fun start => (shown start).trans ?_⟩
  exact congrArg Span.cells (by decide +kernel)

end LintReport
