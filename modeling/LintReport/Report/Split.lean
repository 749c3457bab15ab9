/-
  LintReport.Report.Split — the files of a run split into what is on new lines and what is not.

  A file with findings on new lines is split in two, both counted anew; any other file is taken
  over as it is, with the counts reported for it.

  Proved:
  - `Split.ofFiles_append`: splitting goes file by file.
  - `findings_existingPart`: the existing part of a file holds what is not on new lines.
  - `perm_newFindings_oldFindings`: the halves of a file share out its findings.
-/

import LintReport.Log.Event

namespace LintReport

open Log (Event)

/-- Only new lines if any file says so, whole files otherwise. -/
def Scope.ofFiles (files : List FileFindings) : Scope :=
  if files.any (·.scope = some .lineOnly) then .lineOnly else .fullFile

/-- Files with the findings on new lines, and files with the others. -/
structure Split where
  new : List FileFindings
  existing : List FileFindings
  deriving DecidableEq, Repr

namespace FileFindings

def hasNew (f : FileFindings) : Bool := f.findings.any (·.newLine)

def newPart? (f : FileFindings) : Option FileFindings :=
  if f.hasNew then some (f.restrict f.newFindings) else none

def existingPart (f : FileFindings) : FileFindings :=
  if f.hasNew then f.restrict f.oldFindings else f

theorem hasNew_eq_true_iff (f : FileFindings) : f.hasNew = true ↔ f.newFindings ≠ [] := by
  simp [hasNew, newFindings]

theorem oldFindings_of_not_hasNew {f : FileFindings} (h : ¬ f.hasNew = true) :
    f.oldFindings = f.findings := by
  refine List.filter_eq_self.mpr fun m hm => ?_
  have old : ∀ m ∈ f.findings, m.newLine = false := by simpa [hasNew] using h
  simp [old m hm]

theorem newPart?_eq (f : FileFindings) :
    f.newPart? = if f.newFindings = [] then none else some (f.restrict f.newFindings) := by
  unfold newPart?
  by_cases h : f.newFindings = []
  · rw [if_neg (by rw [hasNew_eq_true_iff]; exact fun hn => hn h), if_pos h]
  · rw [if_pos ((hasNew_eq_true_iff f).mpr h), if_neg h]

/-- Whether a file is split or taken over, its existing part holds what is not on new lines. -/
@[simp] theorem findings_existingPart (f : FileFindings) :
    f.existingPart.findings = f.oldFindings := by
  unfold existingPart
  split
  · rfl
  · rename_i h
    exact (oldFindings_of_not_hasNew h).symm

@[simp] theorem path_existingPart (f : FileFindings) : f.existingPart.path = f.path := by
  unfold existingPart
  split <;> rfl

/-- The halves of a file share out its findings. -/
theorem perm_newFindings_oldFindings (f : FileFindings) :
    (f.newFindings ++ f.oldFindings).Perm f.findings :=
  List.filter_append_perm (fun m : Finding => m.newLine) f.findings

end FileFindings

namespace Split

def ofFiles (files : List FileFindings) : Split where
  new := files.filterMap FileFindings.newPart?
  existing := files.map FileFindings.existingPart

def event (files : List FileFindings) : Event := .split files.length (ofFiles files).new.length

theorem ofFiles_append (xs ys : List FileFindings) :
    ofFiles (xs ++ ys) =
      ⟨(ofFiles xs).new ++ (ofFiles ys).new, (ofFiles xs).existing ++ (ofFiles ys).existing⟩ := by
  simp [ofFiles]

end Split

end LintReport
