/-
  LintReport.Proofs.Finding.Writing — findings written as the results of a linter, and read again.

  Written as JSON, each file and each finding is an object with the members that the reader looks
  for. What has no value of its own is left out: the fix of a finding that has none, and the version
  of a file without a scope. The text of a fix is not kept, so any object may stand for it. Objects
  keep saying the same when their members are put in another order and others are added.

  Numbers of lines, columns and findings are natural ones wherever they were read, which is all that
  reading needs to give back what was written.

  Proved:
  - `ofMembers_members`: the members of a finding, and of a file, are read as written.
  - `ofValue_of_writtenAs`: so are results, whatever the order of members and whatever else there
    is.
  - `natural_of_mem_ofValue`: what is read from any value has natural numbers only.
  - `reading_undoes_writing`: all of this for results, and reading as a normal form.
-/

import LintReport.Finding.Reading
import LintReport.Proofs.Json.Members
import LintReport.Proofs.Report.Parts
import LintReport.Proofs.Report.Rows
import Mathlib.Data.List.Forall2

namespace LintReport

open Json (Value Members Key)
open Text (symbols)

/-! ## Objects -/

namespace Json

def member (name : String) (v : Value) : Key × Value := (symbols name.toList, v)

def Value.ofText (s : Text) : Value := .text (symbols s)

end Json

open Json (member)

def Severity.code : Severity → Int
  | .info => 0
  | .warning => 1
  | .error => 2

namespace Finding

def memberNames : List String :=
  ["line", "column", "severity", "message", "ruleId", "fatal", "newLineError", "fix"]

/-- A finding as an object, this one being its fix if it has any. -/
def members (fix : Members) (m : Finding) : Members :=
  [member "line" (.int m.line), member "column" (.int m.column),
    member "severity" (.int m.severity.code), member "message" (.ofText m.text),
    member "ruleId" ((m.rule.map Value.ofText).getD .null), member "fatal" (.bool m.fatal),
    member "newLineError" (.bool m.newLine)]
    ++ if m.fixable then [member "fix" (.object fix)] else []

/-- The value is an object that tells of this finding. -/
def WrittenAs (m : Finding) (v : Value) : Prop :=
  ∃ fix ms, Members.Extends memberNames (m.members fix) ms ∧ v = .object ms

end Finding

namespace FileFindings

def memberNames : List String :=
  ["filePath", "messages", "errorCount", "warningCount", "fixableErrorCount",
    "fixableWarningCount", "version"]

def members (messages : List Value) (f : FileFindings) : Members :=
  [member "filePath" (.ofText f.path), member "messages" (.array messages),
    member "errorCount" (.int f.counts.errors), member "warningCount" (.int f.counts.warnings),
    member "fixableErrorCount" (.int f.counts.fixableErrors),
    member "fixableWarningCount" (.int f.counts.fixableWarnings)]
    ++ match f.scope with
      | none => []
      | some scope => [member "version" (.ofText scope.name)]

def WrittenAs (f : FileFindings) (v : Value) : Prop :=
  ∃ messages ms, List.Forall₂ Finding.WrittenAs f.findings messages ∧
    Members.Extends memberNames (f.members messages) ms ∧ v = .object ms

def ListWrittenAs (files : List FileFindings) (v : Value) : Prop :=
  ∃ items, List.Forall₂ WrittenAs files items ∧ v = .array items

/-- The files as results, with empty objects for fixes. -/
def encode (files : List FileFindings) : Value :=
  .array (files.map fun f =>
    .object (f.members (f.findings.map fun m => .object (m.members []))))

structure Natural (f : FileFindings) : Prop where
  counts : f.counts.Nonneg
  findings : ∀ m ∈ f.findings, m.Placed

end FileFindings

/-! ## What is looked for -/

theorem Severity.ofValue_code (s : Severity) : Severity.ofValue (some (.int s.code)) = s := by
  cases s <;> rfl

theorem Scope.ofValue_name (s : Scope) : Scope.ofValue (some (.ofText s.name)) = some s := by
  cases s <;> rfl

theorem Reading.natural_int {n : Int} (h : 0 ≤ n) : Reading.natural (some (.int n)) = n :=
  Int.max_eq_left h

theorem Reading.text_ofText (s : Text) : Reading.text (some (.ofText s)) = s :=
  Text.ofSymbols_symbols s

theorem Reading.text?_rule (rule : Option Text) :
    Reading.text? (some ((rule.map Value.ofText).getD .null)) = rule := by
  cases rule with
  | none => rfl
  | some s => exact congrArg some (Text.ofSymbols_symbols s)

/-- A list is read item by item. -/
theorem Reading.map_members? {α : Type} {written : α → Value → Prop} {read : Members → α}
    {as : List α} {vs : List Value} (h : List.Forall₂ written as vs)
    (one : ∀ a ∈ as, ∀ v, written a v → v.members?.map read = some a) :
    (vs.filterMap Value.members?).map read = as := by
  induction h with
  | nil => rfl
  | cons first _ ih =>
    rename_i a v as vs _
    have rest := ih fun b hb => one b (List.mem_cons_of_mem a hb)
    obtain ⟨ms, object, same⟩ := Option.map_eq_some_iff.mp (one a List.mem_cons_self v first)
    rw [List.filterMap_cons_some object, List.map_cons, same, rest]

namespace Finding

theorem nodup_members (fix : Members) (m : Finding) : ((m.members fix).map (·.1)).Nodup := by
  have written : (m.members fix).map (·.1) <+: memberNames.map fun name => symbols name.toList := by
    unfold members
    cases m.fixable with
    | true => exact List.prefix_rfl
    | false => exact ⟨[symbols "fix".toList], rfl⟩
  exact written.sublist.nodup (by decide)

/-- A finding is read from its members as it was written. -/
theorem ofMembers_members {m : Finding} (h : m.Placed) (fix : Members) :
    Finding.ofMembers (m.members fix) = m := by
  obtain ⟨line, column, severity, text, rule, fatal, fixable, newLine⟩ := m
  have fixed : Reading.present ((members fix
      ⟨line, column, severity, text, rule, fatal, fixable, newLine⟩).named? "fix") = fixable := by
    cases fixable <;> rfl
  unfold Finding.ofMembers
  rw [fixed]
  show Finding.mk (Reading.natural (some (.int line))) (Reading.natural (some (.int column)))
    (Severity.ofValue (some (.int severity.code))) (Reading.text (some (.ofText text)))
    (Reading.text? (some ((rule.map Value.ofText).getD .null))) fatal fixable newLine = _
  rw [Reading.natural_int h.line, Reading.natural_int h.column, Severity.ofValue_code,
    Reading.text_ofText, Reading.text?_rule]

/-- A finding is read by the members that are looked for. -/
theorem ofMembers_congr {ms ns : Members}
    (h : ∀ name ∈ memberNames, ms.named? name = ns.named? name) :
    Finding.ofMembers ms = Finding.ofMembers ns := by
  simp only [memberNames, List.forall_mem_cons, List.not_mem_nil, false_implies,
    implies_true, and_true] at h
  obtain ⟨line, column, severity, message, ruleId, fatal, newLine, fix⟩ := h
  simp only [Finding.ofMembers, line, column, severity, message, ruleId, fatal, newLine, fix]

theorem ofMembers_of_writtenAs {m : Finding} (h : m.Placed) {v : Value} (written : m.WrittenAs v) :
    v.members?.map Finding.ofMembers = some m := by
  obtain ⟨fix, ms, extends_, rfl⟩ := written
  have same : Finding.ofMembers ms = Finding.ofMembers (m.members fix) := by
    refine ofMembers_congr fun name hname => ?_
    exact Members.named?_of_extends extends_ (nodup_members fix m) hname
  show some (Finding.ofMembers ms) = some m
  rw [same, ofMembers_members h]

end Finding

namespace FileFindings

theorem nodup_members (messages : List Value) (f : FileFindings) :
    ((f.members messages).map (·.1)).Nodup := by
  have written : (f.members messages).map (·.1) <+:
      memberNames.map fun name => symbols name.toList := by
    unfold members
    cases f.scope with
    | some scope => exact List.prefix_rfl
    | none => exact ⟨[symbols "version".toList], rfl⟩
  exact written.sublist.nodup (by decide)

/-- A file is read from its members as it was written. -/
theorem ofMembers_members {f : FileFindings} (h : f.Natural) {messages : List Value}
    (written : List.Forall₂ Finding.WrittenAs f.findings messages) :
    FileFindings.ofMembers (f.members messages) = f := by
  have findings : (messages.filterMap Value.members?).map Finding.ofMembers = f.findings :=
    Reading.map_members? written fun m hm _ => Finding.ofMembers_of_writtenAs (h.findings m hm)
  obtain ⟨errors, warnings, fixableErrors, fixableWarnings⟩ := Counts.nonneg_iff.mp h.counts
  obtain ⟨path, ms, counts, scope⟩ := f
  have version : Scope.ofValue ((members messages ⟨path, ms, counts, scope⟩).named? "version") =
      scope := by
    cases scope with
    | none => rfl
    | some scope => exact Scope.ofValue_name scope
  unfold FileFindings.ofMembers
  rw [version]
  show FileFindings.mk (Reading.text (some (.ofText path)))
    ((messages.filterMap Value.members?).map Finding.ofMembers)
    ⟨Reading.natural (some (.int counts.errors)), Reading.natural (some (.int counts.warnings)),
      Reading.natural (some (.int counts.fixableErrors)),
      Reading.natural (some (.int counts.fixableWarnings))⟩ scope = _
  rw [findings, Reading.text_ofText, Reading.natural_int errors, Reading.natural_int warnings,
    Reading.natural_int fixableErrors, Reading.natural_int fixableWarnings]

/-- A file is read by the members that are looked for. -/
theorem ofMembers_congr {ms ns : Members}
    (h : ∀ name ∈ memberNames, ms.named? name = ns.named? name) :
    FileFindings.ofMembers ms = FileFindings.ofMembers ns := by
  simp only [memberNames, List.forall_mem_cons, List.not_mem_nil, false_implies,
    implies_true, and_true] at h
  obtain ⟨path, messages, errors, warnings, fixableErrors, fixableWarnings, version⟩ := h
  simp only [FileFindings.ofMembers, path, messages, errors, warnings, fixableErrors,
    fixableWarnings, version]

theorem ofMembers_of_writtenAs {f : FileFindings} (h : f.Natural) {v : Value}
    (written : f.WrittenAs v) : v.members?.map FileFindings.ofMembers = some f := by
  obtain ⟨messages, ms, findings, extends_, rfl⟩ := written
  have same : FileFindings.ofMembers ms = FileFindings.ofMembers (f.members messages) := by
    refine ofMembers_congr fun name hname => ?_
    exact Members.named?_of_extends extends_ (nodup_members messages f) hname
  show some (FileFindings.ofMembers ms) = some f
  rw [same, ofMembers_members h findings]

/-! ## Results -/

/-- Results are read as they were written, whatever the order of members and whatever else is
there. -/
theorem ofValue_of_writtenAs {files : List FileFindings} (h : ∀ f ∈ files, f.Natural) {v : Value}
    (written : ListWrittenAs files v) : ofValue v = files := by
  obtain ⟨items, each, rfl⟩ := written
  exact Reading.map_members? each fun f hf _ => ofMembers_of_writtenAs (h f hf)

theorem listWrittenAs_encode (files : List FileFindings) : ListWrittenAs files (encode files) := by
  refine ⟨_, List.forall₂_map_right_iff.mpr (List.forall₂_same.mpr fun f _ => ?_), rfl⟩
  refine ⟨_, _, ?_, .refl _ _, rfl⟩
  exact List.forall₂_map_right_iff.mpr (List.forall₂_same.mpr fun m _ => ⟨[], _, .refl _ _, rfl⟩)

/-- What is read from any value has natural numbers only. -/
theorem natural_of_mem_ofValue {v : Value} {f : FileFindings} (h : f ∈ ofValue v) : f.Natural := by
  obtain ⟨ms, rfl⟩ := exists_members_of_mem_ofValue h
  have number := Reading.natural_nonneg
  refine ⟨Counts.nonneg_iff.mpr ⟨number _, number _, number _, number _⟩, ?_⟩
  intro m hm
  obtain ⟨ns, rfl⟩ := exists_members_of_mem_findings hm
  exact ⟨number _, number _⟩

/-- Reading gives back the files that were written, if they have natural numbers only, also from
objects whose members are put in another order with others among them. What is read from any value
has natural numbers only, so that it is read again as it is from what is written of it. -/
theorem reading_undoes_writing :
    (∀ files : List FileFindings, (∀ f ∈ files, f.Natural) →
      ofValue (encode files) = files ∧ ∀ v, ListWrittenAs files v → ofValue v = files) ∧
    ∀ v, (∀ f ∈ ofValue v, f.Natural) ∧ ofValue (encode (ofValue v)) = ofValue v := by
  have undoes (files : List FileFindings) (h : ∀ f ∈ files, f.Natural) :
      ofValue (encode files) = files := ofValue_of_writtenAs h (listWrittenAs_encode files)
  refine ⟨fun files h => ⟨undoes files h, fun v => ofValue_of_writtenAs h⟩, fun v => ?_⟩
  have natural : ∀ f ∈ ofValue v, f.Natural := fun _ => natural_of_mem_ofValue
  exact ⟨natural, undoes _ natural⟩

/-- Two files, the members of their objects in reverse and with one more everywhere. -/
theorem reading_undoes_writing_reversed :
    let more := member "source" (.array [.null])
    let m : Finding :=
      { line := 3, column := 7, severity := .error, text := "é.".toList, rule := some "r".toList
        fixable := true, newLine := true }
    let f : FileFindings := ⟨"a".toList, [m], ⟨1, 9, 0, 0⟩, some .lineOnly⟩
    let g : FileFindings := ⟨"a".toList, [], ⟨0, 0, 2, 0⟩, none⟩
    let files := [f, g]
    let message := Value.object (m.members [more] ++ [more]).reverse
    let v := Value.array
      [.object (f.members [message] ++ [more]).reverse, .object (g.members [] ++ [more]).reverse]
    (∀ h ∈ files, h.Natural) ∧ ListWrittenAs files v ∧ ofValue v = files ∧
      ofValue (encode files) = files := by
  intro more m f g files message v
  have natural : ∀ h ∈ files, h.Natural := by
    intro h hh
    rcases List.mem_pair.mp hh with rfl | rfl
    · refine ⟨by decide, fun n hn => ?_⟩
      obtain rfl := List.mem_singleton.mp hn
      exact ⟨by decide, by decide⟩
    · exact ⟨by decide, nofun⟩
  have reversed (known : List String) (unknown : "source" ∉ known) (ms : Members) :
      Members.Extends known ms (ms ++ [more]).reverse := by
    refine ⟨[more], fun o ho name hname same => ?_, List.reverse_perm _⟩
    obtain rfl := List.mem_singleton.mp ho
    have named : "source" = name := String.toList_injective (Text.symbols_inj same)
    exact unknown (named ▸ hname)
  have told : m.WrittenAs message := ⟨[more], _, reversed _ (by decide) _, rfl⟩
  have written : ListWrittenAs files v :=
    ⟨_, .cons ⟨[message], _, .cons told .nil, reversed _ (by decide) _, rfl⟩
      (.cons ⟨[], _, .nil, reversed _ (by decide) _, rfl⟩ .nil), rfl⟩
  obtain ⟨undone, any⟩ := reading_undoes_writing.1 files natural
  exact ⟨natural, written, any v written, undone⟩

end FileFindings

end LintReport
