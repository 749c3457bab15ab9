/-
  LintReport.Proofs.Report.Composition — reports on parts of a run put together.

  A report on some files can be made file by file: each file with findings puts its section behind
  what is there, adds its counts and turns the report red if it has an error; one without findings
  is passed over. Nothing is ever taken back, so that the report on two lists of files is the merge
  of theirs with added counts, and a merge of merges does not depend on how it is bracketed.

  Proved:
  - `foldl_addFile` / `ofFiles_eq_foldl`: file by file, a report grows by the report on the files,
    so that this one is what is made of the empty report.
  - `emphasis_foldl_addFile`: a red report stays red whatever files follow.
  - `merge_assoc` / `empty_merge`: merging is associative, and the empty report changes nothing.
  - `counts_ofFiles_perm` / `emphasis_ofFiles_perm`: counts and colour do not depend on the order.
  - `reports_compose`: all of this for two lists of files.
-/

import LintReport.Report.Run

namespace LintReport

open Terminal (Coloring)

namespace Emphasis

theorem join_eq_red_iff {a b : Emphasis} : a.join b = .red ↔ a = .red ∨ b = .red := by
  cases a <;> cases b <;> decide

end Emphasis

theorem Counts.sum_perm {cs ds : List Counts} (h : cs.Perm ds) : sum cs = sum ds := by
  induction h with
  | nil => rfl
  | cons c _ ih => rw [sum_cons, sum_cons, ih]
  | swap c d cs => rw [sum_cons, sum_cons, sum_cons, sum_cons, ← add_assoc, add_comm d, add_assoc]
  | trans _ _ first second => exact first.trans second

namespace Report

/-! ## File by file -/

/-- The report with one more file: its section behind the others, its counts added, and red if it
has an error. A file without findings is passed over. -/
def addFile (coloring : Coloring) (r : Report) (f : FileFindings) : Report :=
  if f.hasFindings then
    { output := r.output ++ Section.ofFile coloring f
      counts := r.counts + f.counts
      emphasis := if f.hasErrors then .red else r.emphasis }
  else r

theorem append_empty (r : Report) : r.append {} = r := by
  have counts : r.counts + (0 : Counts) = r.counts := Counts.add_zero r.counts
  simp only [append, List.append_nil, counts, Emphasis.join_yellow]

theorem empty_append (r : Report) : append {} r = r := by
  have counts : (0 : Counts) + r.counts = r.counts := Counts.zero_add r.counts
  simp only [append, List.nil_append, counts, Emphasis.yellow_join]

theorem append_assoc (r s t : Report) : (r.append s).append t = r.append (s.append t) := by
  simp only [append, List.append_assoc, Counts.add_assoc, Emphasis.join_assoc]

theorem addFile_eq (coloring : Coloring) (r : Report) (f : FileFindings) :
    r.addFile coloring f = r.append (ofFiles coloring [f]) := by
  unfold addFile
  by_cases shown : f.hasFindings = true
  · have emphasis : (if f.hasErrors then .red else r.emphasis) =
        r.emphasis.join (.ofError f.hasErrors) := by
      cases f.hasErrors
      · exact (Emphasis.join_yellow r.emphasis).symm
      · exact (Emphasis.join_red r.emphasis).symm
    rw [if_pos shown, ofFiles_of_hasFindings coloring shown, append, emphasis]
  · rw [if_neg shown, ofFiles_of_not_hasFindings coloring shown, append_empty]

/-- File by file, a report grows by the report on the files. -/
theorem foldl_addFile (coloring : Coloring) (r : Report) (files : List FileFindings) :
    files.foldl (addFile coloring) r = r.append (ofFiles coloring files) := by
  -- The files before are in the report at hand, so that it has to be any report.
  induction files generalizing r with
  | nil => exact (append_empty r).symm
  | cons f files ih =>
    rw [List.foldl_cons, ih, addFile_eq, ofFiles_cons coloring f files, append_assoc]

/-- The report on some files is made file by file. -/
theorem ofFiles_eq_foldl (coloring : Coloring) (files : List FileFindings) :
    ofFiles coloring files = files.foldl (addFile coloring) {} := by
  rw [foldl_addFile, empty_append]

/-- A red report stays red whatever files follow. -/
theorem emphasis_foldl_addFile (coloring : Coloring) {r : Report} (h : r.emphasis = .red)
    (files : List FileFindings) : (files.foldl (addFile coloring) r).emphasis = .red := by
  rw [foldl_addFile]
  exact Emphasis.join_eq_red_iff.mpr (.inl h)

/-! ## Merges -/

theorem append_eq_merge (r s : Report) : r.append s = r.merge .sum s (r.output ++ s.output) := rfl

theorem merge_assoc (policy : Policy) (r s t : Report) (within output : Text) :
    (r.merge policy s within).merge policy t output =
      r.merge policy (s.merge policy t within) output := by
  simp only [merge, Counts.combine, Policy.combine_assoc, Emphasis.join_assoc]

theorem empty_merge (policy : Policy) (r : Report) (output : Text) :
    Report.merge policy {} r output = { r with output := output } := by
  simp [merge, Counts.combine, Counts.zero_def]

/-! ## Order -/

theorem counts_ofFiles_perm (coloring : Coloring) {xs ys : List FileFindings} (h : xs.Perm ys) :
    (ofFiles coloring xs).counts = (ofFiles coloring ys).counts :=
  Counts.sum_perm ((h.filter _).map _)

theorem emphasis_ofFiles_perm (coloring : Coloring) {xs ys : List FileFindings} (h : xs.Perm ys) :
    (ofFiles coloring xs).emphasis = (ofFiles coloring ys).emphasis :=
  congrArg Emphasis.ofError (h.filter _).any_eq

end Report

open Report

/-- The report on two lists of files is the merge of theirs with added counts, its text theirs one
after the other, and it is what the second list makes of the first report file by file; so is their
split. Merging under either policy is associative, changes nothing with the empty report, and is
red exactly if either report is. So counts and colour do not depend on the order of the files, and
red is not reverted by what follows. -/
theorem reports_compose (coloring : Coloring) (xs ys : List FileFindings) :
    let first := ofFiles coloring xs
    let second := ofFiles coloring ys
    let both := ofFiles coloring (xs ++ ys)
    both = first.merge .sum second (first.output ++ second.output) ∧
      both = ys.foldl (addFile coloring) first ∧
      Split.ofFiles (xs ++ ys) =
        ⟨(Split.ofFiles xs).new ++ (Split.ofFiles ys).new,
          (Split.ofFiles xs).existing ++ (Split.ofFiles ys).existing⟩ ∧
      (∀ (policy : Policy) (r s t : Report) (within output : Text),
        (r.merge policy s within).merge policy t output =
            r.merge policy (s.merge policy t within) output ∧
          r.merge policy {} output = { r with output := output } ∧
          Report.merge policy {} r output = { r with output := output } ∧
          ((r.merge policy s output).emphasis = .red ↔ r.emphasis = .red ∨ s.emphasis = .red)) ∧
      (∀ zs, zs.Perm xs → (ofFiles coloring zs).counts = first.counts ∧
        (ofFiles coloring zs).emphasis = first.emphasis) ∧
      (first.emphasis = .red → both.emphasis = .red) := by
  intro first second both
  have grown : both = ys.foldl (addFile coloring) first := by
    rw [foldl_addFile]
    exact ofFiles_append coloring xs ys
  have merged : both = first.merge .sum second (first.output ++ second.output) :=
    (ofFiles_append coloring xs ys).trans (append_eq_merge first second)
  refine ⟨merged, grown, Split.ofFiles_append xs ys, ?_, ?_, ?_⟩
  · intro policy r s t within output
    exact ⟨merge_assoc policy r s t within output, merge_empty policy r output,
      empty_merge policy r output, Emphasis.join_eq_red_iff⟩
  · intro zs perm
    exact ⟨counts_ofFiles_perm coloring perm, emphasis_ofFiles_perm coloring perm⟩
  · intro red
    rw [grown]
    exact emphasis_foldl_addFile coloring red ys

/-- A red file with counts that are made up, one that is passed over and one that is not red, in
both orders. -/
theorem reports_compose_reordered :
    let red : FileFindings :=
      ⟨"a".toList, [{ fatal := true, newLine := true }, {}], ⟨-1, 7, 0, 0⟩, none⟩
    let empty : FileFindings := ⟨"b".toList, [], ⟨5, 5, 5, 5⟩, none⟩
    let plain : FileFindings := ⟨"c".toList, [{}], ⟨0, 1, 0, 1⟩, some .fullFile⟩
    let backward := [plain, empty, red]
    let forward := [red, empty] ++ [plain]
    backward.Perm forward ∧ (ofFiles .full backward).counts = (ofFiles .full forward).counts ∧
      (ofFiles .full forward).counts = ⟨-1, 8, 0, 1⟩ ∧ (ofFiles .full forward).emphasis = .red ∧
      Split.ofFiles forward =
        ⟨(Split.ofFiles [red, empty]).new ++ [],
          (Split.ofFiles [red, empty]).existing ++ [plain]⟩ := by
  intro red empty plain backward forward
  have perm : backward.Perm forward := List.reverse_perm forward
  obtain ⟨-, -, -, -, order, -⟩ := reports_compose .full forward []
  obtain ⟨-, -, split, -, -, stays⟩ := reports_compose .full [red, empty] [plain]
  exact ⟨perm, (order backward perm).1, by decide, stays (by decide), split⟩

end LintReport
