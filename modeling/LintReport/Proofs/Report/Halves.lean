/-
  LintReport.Proofs.Report.Halves — what a split makes of each file.

  Every file leaves one file among the existing ones, at its own place, and one among the new ones
  if it holds a new finding. Paths may repeat, so which file a half comes from is told by its place:
  the existing halves are paired with all files, and the new halves with the files that have one.
  Both halves keep the findings in the order of the file.

  Proved:
  - `existingPart_isExistingHalf` / `restrict_isNewHalf`: the halves of one file.
  - `tally_halves`: the counts of both halves add up to those of the file.
  - `split_stable`: what a split of any files holds, and that splitting its parts again changes
    nothing.
-/

import LintReport.Proofs.Report.Tally
import Mathlib.Data.List.Forall2

namespace LintReport

namespace FileFindings

/-! ## The halves of a file -/

/-- The file with its findings on existing lines, in order. One without new findings is taken over
with the counts reported for it, any other is counted anew. -/
structure IsExistingHalf (f old : FileFindings) : Prop where
  path : old.path = f.path
  scope : old.scope = f.scope
  findings : old.findings = f.findings.filter (!·.newLine)
  counted : (∃ m ∈ f.findings, m.newLine = true) → old.counts = Counts.tally old.findings
  kept : (∀ m ∈ f.findings, m.newLine = false) → old = f

/-- The file with its findings on new lines, in order, counted anew. -/
structure IsNewHalf (f new : FileFindings) : Prop where
  path : new.path = f.path
  scope : new.scope = f.scope
  findings : new.findings = f.findings.filter (·.newLine)
  counted : new.counts = Counts.tally new.findings

theorem hasNew_iff_exists (f : FileFindings) :
    f.hasNew = true ↔ ∃ m ∈ f.findings, m.newLine = true := List.any_eq_true

theorem existingPart_isExistingHalf (f : FileFindings) : f.IsExistingHalf f.existingPart := by
  unfold existingPart
  split
  · rename_i new
    refine ⟨rfl, rfl, rfl, fun _ => Counts.ofFindings_eq_tally _, ?_⟩
    intro none
    obtain ⟨m, hm, marked⟩ := (hasNew_iff_exists f).mp new
    exact absurd marked (by simp [none m hm])
  · rename_i old
    exact ⟨rfl, rfl, (oldFindings_of_not_hasNew old).symm,
      fun new => absurd ((hasNew_iff_exists f).mpr new) old, fun _ => rfl⟩

theorem restrict_isNewHalf (f : FileFindings) : f.IsNewHalf (f.restrict f.newFindings) :=
  ⟨rfl, rfl, rfl, Counts.ofFindings_eq_tally _⟩

/-- The counts of both halves add up to those of the file. -/
theorem tally_halves (f : FileFindings) :
    Counts.tally f.newFindings + Counts.tally f.oldFindings = Counts.tally f.findings := by
  rw [← Counts.tally_append]
  exact Counts.tally_perm f.perm_newFindings_oldFindings

theorem counts_halves {f old new : FileFindings} (marked : f.hasNew = true)
    (hold : f.IsExistingHalf old) (hnew : f.IsNewHalf new) :
    new.counts + old.counts = Counts.tally f.findings := by
  rw [hnew.counted, hold.counted ((hasNew_iff_exists f).mp marked), hnew.findings, hold.findings]
  exact tally_halves f

/-! ## A half that is split again -/

theorem not_hasNew_existingPart (f : FileFindings) : ¬ f.existingPart.hasNew = true := by
  rw [hasNew_iff_exists, findings_existingPart]
  intro new
  obtain ⟨m, hm, marked⟩ := new
  have unmarked := (List.mem_filter.mp hm).2
  simp [marked] at unmarked

theorem newFindings_restrict (f : FileFindings) :
    (f.restrict f.newFindings).newFindings = f.newFindings :=
  List.filter_eq_self.mpr fun _ hm => (List.mem_filter.mp hm).2

theorem oldFindings_restrict (f : FileFindings) :
    (f.restrict f.newFindings).oldFindings = [] := by
  refine List.filter_eq_nil_iff.mpr fun m hm => ?_
  simpa using (List.mem_filter.mp hm).2

theorem existingPart_existingPart (f : FileFindings) :
    f.existingPart.existingPart = f.existingPart :=
  if_neg (not_hasNew_existingPart f)

theorem newPart?_existingPart (f : FileFindings) : f.existingPart.newPart? = none :=
  if_neg (not_hasNew_existingPart f)

theorem newPart?_of_newPart? {f g : FileFindings} (h : f.newPart? = some g) :
    g.newPart? = some g := by
  rw [newPart?_eq] at h
  split at h
  · cases h
  · rename_i new
    cases h
    rw [newPart?_eq, newFindings_restrict, if_neg new]
    rfl

end FileFindings

namespace Split

open FileFindings

/-! ## The halves of all files -/

/-- The files that hold a new finding, each beside what it leaves among the existing ones. -/
def halved (files : List FileFindings) : List (FileFindings × FileFindings) :=
  (files.zip (ofFiles files).existing).filter fun p => p.1.hasNew

theorem halved_cons_of_pos {f : FileFindings} (h : f.hasNew = true) (files : List FileFindings) :
    halved (f :: files) = (f, f.existingPart) :: halved files := List.filter_cons_of_pos h

theorem halved_cons_of_neg {f : FileFindings} (h : ¬ f.hasNew = true) (files : List FileFindings) :
    halved (f :: files) = halved files := List.filter_cons_of_neg h

theorem fst_halved (files : List FileFindings) :
    (halved files).map (·.1) = files.filter (·.hasNew) := by
  induction files with
  | nil => rfl
  | cons f files ih =>
    by_cases marked : f.hasNew = true
    · rw [halved_cons_of_pos marked, List.filter_cons_of_pos marked, List.map_cons, ih]
    · rw [halved_cons_of_neg marked, List.filter_cons_of_neg marked, ih]

theorem existing_paired (files : List FileFindings) :
    List.Forall₂ IsExistingHalf files (ofFiles files).existing := by
  induction files with
  | nil => exact .nil
  | cons f files ih => exact .cons (existingPart_isExistingHalf f) ih

theorem new_paired (files : List FileFindings) :
    List.Forall₂
      (fun p new => p.1.IsNewHalf new ∧ new.counts + p.2.counts = Counts.tally p.1.findings)
      (halved files) (ofFiles files).new := by
  induction files with
  | nil => exact .nil
  | cons f files ih =>
    by_cases marked : f.hasNew = true
    · have new : (ofFiles (f :: files)).new = f.restrict f.newFindings :: (ofFiles files).new :=
        List.filterMap_cons_some (if_pos marked)
      rw [halved_cons_of_pos marked, new]
      have half := restrict_isNewHalf f
      exact .cons ⟨half, counts_halves marked (existingPart_isExistingHalf f) half⟩ ih
    · have new : (ofFiles (f :: files)).new = (ofFiles files).new :=
        List.filterMap_cons_none (if_neg marked)
      rw [halved_cons_of_neg marked, new]
      exact ih

/-- The existing files hold nothing new. -/
theorem ofFiles_existing (files : List FileFindings) :
    ofFiles (ofFiles files).existing = ⟨[], (ofFiles files).existing⟩ := by
  have new : (ofFiles (ofFiles files).existing).new = [] := by
    refine List.filterMap_eq_nil_iff.mpr fun old hold => ?_
    obtain ⟨f, -, rfl⟩ := List.mem_map.mp hold
    exact newPart?_existingPart f
  have existing : (ofFiles (ofFiles files).existing).existing = (ofFiles files).existing := by
    show (files.map existingPart).map existingPart = files.map existingPart
    rw [List.map_map]
    exact List.map_congr_left fun f _ => existingPart_existingPart f
  exact congrArg₂ Split.mk new existing

theorem new_ofFiles_new (files : List FileFindings) :
    (ofFiles (ofFiles files).new).new = (ofFiles files).new := by
  show (files.filterMap newPart?).filterMap newPart? = files.filterMap newPart?
  rw [List.filterMap_filterMap]
  refine List.filterMap_congr fun f _ => ?_
  cases half : f.newPart? with
  | none => rfl
  | some g => exact newPart?_of_newPart? half

/-- What the new files leave among the existing ones is empty. -/
theorem findings_existing_ofFiles_new {files : List FileFindings} {old : FileFindings}
    (h : old ∈ (ofFiles (ofFiles files).new).existing) : old.findings = [] := by
  obtain ⟨new, hnew, rfl⟩ := List.mem_map.mp h
  obtain ⟨f, -, half⟩ := List.mem_filterMap.mp hnew
  rw [newPart?_eq] at half
  split at half
  · cases half
  · cases half
    rw [findings_existingPart, oldFindings_restrict]

/-- A split is stable, loses nothing and is not undone by another. Each file leaves its existing
half at its own place; the files with new findings leave, in order, their new halves, whose counts
and those of the existing halves add up to the counts of the file. Split again, the existing files
stay as they are and the new ones are new, with nothing left to the others. -/
theorem split_stable (files : List FileFindings) :
    let split := ofFiles files
    List.Forall₂ IsExistingHalf files split.existing ∧
      (halved files).map (·.1) = files.filter (·.hasNew) ∧
      List.Forall₂
        (fun p new => p.1.IsNewHalf new ∧ new.counts + p.2.counts = Counts.tally p.1.findings)
        (halved files) split.new ∧
      ofFiles split.existing = ⟨[], split.existing⟩ ∧
      (ofFiles split.new).new = split.new ∧
      ∀ old ∈ (ofFiles split.new).existing, old.findings = [] :=
  ⟨existing_paired files, fst_halved files, new_paired files, ofFiles_existing files,
    new_ofFiles_new files, fun _ h => findings_existing_ofFiles_new h⟩

end Split

end LintReport
