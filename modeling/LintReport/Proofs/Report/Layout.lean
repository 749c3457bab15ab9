/-
  LintReport.Proofs.Report.Layout — where the findings of a run stand in its report.

  The report is described here by the marks on the findings alone. A kind of findings is laid out
  as a list of entries: each file that has findings of the kind, with exactly those. When a file
  says that the run holds new lines only, all findings are of one kind; otherwise the unmarked ones
  make the existing block and the marked ones the new block.

  Proved:
  - `output_report`: the text of a report is this layout, and its entries share out the findings of
    the run: each stands in exactly one.
-/

import LintReport.Report.Run

namespace LintReport

open Terminal (Coloring)

/-! ## The layout -/

structure Entry where
  path : Text
  findings : List Finding
  deriving DecidableEq, Repr

def FileFindings.entryOf? (kind : Finding → Bool) (f : FileFindings) : Option Entry :=
  if f.findings.filter kind = [] then none else some ⟨f.path, f.findings.filter kind⟩

namespace Layout

def every (_ : Finding) : Bool := true

def marked (m : Finding) : Bool := m.newLine

def unmarked (m : Finding) : Bool := !m.newLine

def ofKind (kind : Finding → Bool) (files : List FileFindings) : List Entry :=
  files.filterMap (·.entryOf? kind)

def body (coloring : Coloring) (es : List Entry) : Text :=
  es.flatMap fun e => Section.ofFindings coloring e.path e.findings

/-- The block of the findings on existing lines; none without such findings. -/
def existingBlock (coloring : Coloring) (files : List FileFindings) : Text :=
  if ∃ f ∈ files, ∃ m ∈ f.findings, m.newLine = false then
    Banner.ruled Banner.existingTitle (body coloring (ofKind unmarked files)) ++ " \n\n".toList
  else []

/-- The block of the findings on new lines, or the banner that there are none. -/
def newBlock (coloring : Coloring) (files : List FileFindings) : Text :=
  if ∃ f ∈ files, ∃ m ∈ f.findings, m.newLine = true then
    Banner.ruled Banner.newTitle (body coloring (ofKind marked files)) ++ "\n\n".toList
  else Banner.ruled Banner.nothingNewTitle [] ++ "\n\n".toList

def text (coloring : Coloring) (files : List FileFindings) : Text :=
  if ∃ f ∈ files, f.scope = some .lineOnly then
    body coloring (ofKind every files) ++ "\n\n".toList
  else existingBlock coloring files ++ newBlock coloring files

/-- The entries of the report on some files, as they follow each other in its text. -/
def entries (files : List FileFindings) : List Entry :=
  if ∃ f ∈ files, f.scope = some .lineOnly then ofKind every files
  else ofKind unmarked files ++ ofKind marked files

def placed (es : List Entry) : List (Text × Finding) :=
  es.flatMap fun e => e.findings.map (e.path, ·)

def given (files : List FileFindings) : List (Text × Finding) :=
  files.flatMap fun f => f.findings.map (f.path, ·)

/-! ## Entries -/

@[simp] theorem filter_every (ms : List Finding) : ms.filter every = ms :=
  List.filter_eq_self.mpr fun _ _ => rfl

theorem entryOf?_every (f : FileFindings) :
    f.entryOf? every = if f.findings = [] then none else some ⟨f.path, f.findings⟩ := by
  rw [FileFindings.entryOf?, filter_every]

theorem ofKind_cons (kind : Finding → Bool) (f : FileFindings) (files : List FileFindings) :
    ofKind kind (f :: files) = (f.entryOf? kind).toList ++ ofKind kind files := by
  unfold ofKind
  cases h : f.entryOf? kind <;> simp [h]

theorem ofKind_eq_nil_iff {kind : Finding → Bool} {files : List FileFindings} :
    ofKind kind files = [] ↔ ∀ f ∈ files, ∀ m ∈ f.findings, kind m = false := by
  simp [ofKind, List.filterMap_eq_nil_iff, FileFindings.entryOf?]

/-- An entry holds findings of one file, under its path. -/
theorem exists_of_mem_ofKind {kind : Finding → Bool} {files : List FileFindings} {e : Entry}
    (he : e ∈ ofKind kind files) :
    ∃ f ∈ files, e.path = f.path ∧ ∀ m ∈ e.findings, m ∈ f.findings := by
  obtain ⟨f, hf, found⟩ := List.mem_filterMap.mp he
  unfold FileFindings.entryOf? at found
  split at found
  · cases found
  · cases found
    exact ⟨f, hf, rfl, fun m hm => (List.mem_filter.mp hm).1⟩

theorem body_eq_nil_iff {coloring : Coloring} {es : List Entry} :
    body coloring es = [] ↔ es = [] := by
  cases es with
  | nil => simp [body]
  | cons e es => simp [body, Section.ofFindings]

theorem placed_append (es fs : List Entry) : placed (es ++ fs) = placed es ++ placed fs := by
  simp [placed]

theorem placed_entryOf? (kind : Finding → Bool) (f : FileFindings) :
    placed (f.entryOf? kind).toList = (f.findings.filter kind).map (f.path, ·) := by
  unfold FileFindings.entryOf?
  by_cases h : f.findings.filter kind = []
  · rw [if_pos h, h]
    rfl
  · rw [if_neg h]
    simp [placed]

theorem placed_ofKind (kind : Finding → Bool) (files : List FileFindings) :
    placed (ofKind kind files) = (given files).filter fun p => kind p.2 := by
  induction files with
  | nil => rfl
  | cons f files ih =>
    rw [ofKind_cons, placed_append, placed_entryOf?, ih]
    simp [given, List.filter_map, Function.comp_def]

/-- The entries of a report share out the findings of the run. -/
theorem perm_placed_entries (files : List FileFindings) :
    (placed (entries files)).Perm (given files) := by
  unfold entries
  split
  · rw [placed_ofKind]
    exact List.Perm.of_eq (List.filter_eq_self.mpr fun _ _ => rfl)
  · rw [placed_append, placed_ofKind, placed_ofKind]
    refine List.perm_append_comm.trans ?_
    exact List.filter_append_perm (fun p : Text × Finding => p.2.newLine) (given files)

/-! ## What is reported on -/

theorem output_ofFiles (coloring : Coloring) (files : List FileFindings) :
    (Report.ofFiles coloring files).output = body coloring (ofKind every files) := by
  induction files with
  | nil => rfl
  | cons f files ih =>
    rw [Report.ofFiles_cons, Report.append, ih, ofKind_cons, body, body, List.flatMap_append,
      entryOf?_every]
    by_cases h : f.findings = [] <;>
      simp [Report.ofFiles, FileFindings.hasFindings, Section.ofFile, h]

theorem ofKind_new (files : List FileFindings) :
    ofKind every (Split.ofFiles files).new = ofKind marked files := by
  simp only [ofKind, Split.ofFiles, List.filterMap_filterMap]
  congr 1
  funext f
  rw [FileFindings.newPart?_eq]
  change _ = if f.newFindings = [] then none else some (Entry.mk f.path f.newFindings)
  by_cases h : f.newFindings = [] <;> simp [h, entryOf?_every, FileFindings.restrict]

theorem ofKind_existing (files : List FileFindings) :
    ofKind every (Split.ofFiles files).existing = ofKind unmarked files := by
  simp only [ofKind, Split.ofFiles, List.filterMap_map]
  congr 1
  funext f
  rw [Function.comp_apply, entryOf?_every, FileFindings.findings_existingPart,
    FileFindings.path_existingPart]
  rfl

/-! ## The report -/

theorem blocks_body (coloring : Coloring) (files : List FileFindings) :
    Banner.blocks (body coloring (ofKind marked files)) (body coloring (ofKind unmarked files)) =
      existingBlock coloring files ++ newBlock coloring files := by
  have noOld : body coloring (ofKind unmarked files) = [] ↔
      ¬ ∃ f ∈ files, ∃ m ∈ f.findings, m.newLine = false := by
    rw [body_eq_nil_iff, ofKind_eq_nil_iff]
    simp [unmarked]
  have noNew : body coloring (ofKind marked files) = [] ↔
      ¬ ∃ f ∈ files, ∃ m ∈ f.findings, m.newLine = true := by
    rw [body_eq_nil_iff, ofKind_eq_nil_iff]
    simp [marked]
  unfold Banner.blocks existingBlock newBlock
  by_cases old : ∃ f ∈ files, ∃ m ∈ f.findings, m.newLine = false <;>
    by_cases new : ∃ f ∈ files, ∃ m ∈ f.findings, m.newLine = true <;>
    simp only [noOld, noNew, old, new, not_true_eq_false, not_false_eq_true, if_true, if_false,
      List.append_assoc, List.nil_append]

theorem ofFiles_eq_lineOnly_iff {files : List FileFindings} :
    Scope.ofFiles files = .lineOnly ↔ ∃ f ∈ files, f.scope = some .lineOnly := by
  simp [Scope.ofFiles]

theorem ofFiles_eq_fullFile_iff {files : List FileFindings} :
    Scope.ofFiles files = .fullFile ↔ ∀ f ∈ files, f.scope ≠ some .lineOnly := by
  simp [Scope.ofFiles]

theorem output_eq_text (coloring : Coloring) (policy : Policy) (files : List FileFindings) :
    (Run.report coloring policy files).output = text coloring files := by
  unfold Run.report text
  cases scope : Scope.ofFiles files with
  | lineOnly =>
    rw [if_pos (ofFiles_eq_lineOnly_iff.mp scope)]
    simp [Report.merge, output_ofFiles]
  | fullFile =>
    have full : ¬ ∃ f ∈ files, f.scope = some .lineOnly := by
      simpa using ofFiles_eq_fullFile_iff.mp scope
    rw [if_neg full, ← blocks_body]
    simp only [Report.merge, output_ofFiles, ofKind_new, ofKind_existing]

/-- The text of a report is laid out by the marks on the findings, and each finding of the run
stands in exactly one entry of it. -/
theorem output_report (coloring : Coloring) (policy : Policy) (files : List FileFindings) :
    (Run.report coloring policy files).output = text coloring files ∧
      (placed (entries files)).Perm (given files) :=
  ⟨output_eq_text coloring policy files, perm_placed_entries files⟩

end Layout

end LintReport
