/-
  LintReport.Finding.Reading — findings read from the JSON results of a linter.

  The results are a list of objects, one for each file, with the file's messages as a list of
  objects. What is missing or of another type than expected is taken for the default of its field;
  a negative number counts as zero and a fraction is dropped; an item that should be an object and
  is not is left out and noted in the log. A text of blanks stands for no results.

  A text of the results may hold half of a surrogate pair, which is no character. It is read all the
  same, and the replacement character stands for it here, in the log too; but a report that shows it
  cannot be written (`showsHalf`).

  Proved:
  - `natural_nonneg`: a number read from the results is not negative.
  - `length_ofItems`: there are as many files as items that are objects.
  - `symbols_of_not_showsHalf`: without a half, what is shown has been read as it stands there.
  - `exists_members_of_read` / `exists_members_of_mem_findings`: each file and each finding that is
    read comes from an object.
-/

import LintReport.Json.Decode
import LintReport.Log.Event
import LintReport.Text.Blank

namespace LintReport

open Json (Value Members)
open Log (Event)

namespace Reading

def natural : Option Value → Int
  | some (.int n) => max n 0
  | some (.float x) =>
    match x.truncate? with
    | some n => max n 0
    | none => 0
  | _ => 0

def text : Option Value → Text
  | some (.text s) => Text.ofSymbols s
  | _ => []

def text? : Option Value → Option Text
  | some (.text s) => some (Text.ofSymbols s)
  | _ => none

def flag : Option Value → Bool
  | some (.bool b) => b
  | _ => false

def present : Option Value → Bool
  | none | some .null => false
  | _ => true

def items : Option Value → List Value
  | some (.array vs) => vs
  | _ => []

theorem natural_nonneg (v : Option Value) : 0 ≤ natural v := by
  unfold natural
  split
  · exact Int.le_max_right _ _
  · split
    · exact Int.le_max_right _ _
    · exact Int.le_refl 0
  · exact Int.le_refl 0

end Reading

open Reading

/-! ## Severities and scopes -/

def Severity.ofInt? (n : Int) : Option Severity :=
  if n = 0 then some .info else if n = 1 then some .warning else if n = 2 then some .error else none

/-- A severity is an integer from zero to two; anything else is a warning. -/
def Severity.ofValue : Option Value → Severity
  | some (.int n) => (ofInt? n).getD .warning
  | _ => .warning

/-- An integer that is no severity is noted. -/
def Severity.events : Option Value → List Event
  | some (.int n) => if (ofInt? n).isSome then [] else [.unknownSeverity n]
  | _ => []

def Scope.ofValue : Option Value → Option Scope
  | some (.text s) =>
    if s = Text.symbols Scope.lineOnly.name then some .lineOnly
    else if s = Text.symbols Scope.fullFile.name then some .fullFile
    else none
  | _ => none

/-- A version that is there and names no scope is noted. -/
def Scope.events : Option Value → List Event
  | none | some .null => []
  | some v => if (Scope.ofValue (some v)).isSome then [] else [.unknownScope v]

/-! ## Files -/

def Finding.ofMembers (ms : Members) : Finding where
  line := natural (ms.named? "line")
  column := natural (ms.named? "column")
  severity := Severity.ofValue (ms.named? "severity")
  text := Reading.text (ms.named? "message")
  rule := text? (ms.named? "ruleId")
  fatal := flag (ms.named? "fatal")
  fixable := present (ms.named? "fix")
  newLine := flag (ms.named? "newLineError")

namespace FileFindings

def ofMembers (ms : Members) : FileFindings where
  path := text (ms.named? "filePath")
  findings := ((items (ms.named? "messages")).filterMap Value.members?).map Finding.ofMembers
  counts := ⟨natural (ms.named? "errorCount"), natural (ms.named? "warningCount"),
    natural (ms.named? "fixableErrorCount"), natural (ms.named? "fixableWarningCount")⟩
  scope := Scope.ofValue (ms.named? "version")

def itemEvents (path : Text) (item : Value) : List Event :=
  match item.members? with
  | some ms => Severity.events (ms.named? "severity")
  | none => [.malformedFinding path item]

/-- What is noted about a file: its messages in order, then its version. -/
def events (ms : Members) : List Event :=
  (items (ms.named? "messages")).flatMap (itemEvents (text (ms.named? "filePath")))
    ++ Scope.events (ms.named? "version")

def ofItems (vs : List Value) : List FileFindings :=
  (vs.filterMap Value.members?).map ofMembers

def resultEvents (item : Value) : List Event :=
  match item.members? with
  | some ms => events ms
  | none => [.malformedFile item]

def ofValue : Value → List FileFindings
  | .array vs => ofItems vs
  | _ => []

def valueEvents : Value → List Event
  | .null => []
  | .array vs => vs.flatMap resultEvents ++ [.loaded (ofItems vs).length]
  | v => [.notAList v]

theorem length_ofItems (vs : List Value) :
    (ofItems vs).length = (vs.filter fun v => v.members?.isSome).length := by
  simp [ofItems, List.length_filterMap_eq_countP, List.countP_eq_length_filter]

end FileFindings

/-! ## Halves of surrogate pairs -/

def Reading.holdsHalf : Option Value → Bool
  | some (.text s) => s.any Text.Symbol.isHalf
  | _ => false

def Finding.holdsHalf (ms : Members) : Bool :=
  Reading.holdsHalf (ms.named? "message") || Reading.holdsHalf (ms.named? "ruleId")

namespace FileFindings

/-- Whether a text that is shown of a file holds a half; nothing is shown of one without
findings. -/
def showsHalf (ms : Members) : Bool :=
  let findings := (items (ms.named? "messages")).filterMap Value.members?
  !findings.isEmpty && (holdsHalf (ms.named? "filePath") || findings.any Finding.holdsHalf)

def valueShowsHalf : Value → Bool
  | .array vs => (vs.filterMap Value.members?).any showsHalf
  | _ => false

/-- Where a file shows no half, all that is shown of it has been read as it stands in the results. -/
theorem symbols_of_not_showsHalf {ms : Members} (h : showsHalf ms = false)
    (shown : (ofMembers ms).findings ≠ []) :
    (∀ s, ms.named? "filePath" = some (.text s) → Text.symbols (ofMembers ms).path = s) ∧
      ∀ ns ∈ (items (ms.named? "messages")).filterMap Value.members?,
        (∀ s, ns.named? "message" = some (.text s) →
          Text.symbols (Finding.ofMembers ns).text = s) ∧
        ∀ s, ns.named? "ruleId" = some (.text s) →
          (Finding.ofMembers ns).rule.map Text.symbols = some s := by
  have some : ((items (ms.named? "messages")).filterMap Value.members?).isEmpty = false := by
    rw [List.isEmpty_eq_false_iff]
    exact fun none => shown (congrArg (List.map Finding.ofMembers) none)
  simp only [showsHalf, some, Bool.not_false, Bool.true_and, Bool.or_eq_false_iff,
    List.any_eq_false, Finding.holdsHalf, Bool.not_eq_true] at h
  obtain ⟨path, findings⟩ := h
  refine ⟨?_, fun ns mem => ⟨?_, ?_⟩⟩
  · intro s named
    rw [named] at path
    simp only [ofMembers, named, Reading.text]
    exact Text.symbols_ofSymbols path
  · intro s named
    have text := (findings ns mem).1
    rw [named] at text
    simp only [Finding.ofMembers, named, Reading.text]
    exact Text.symbols_ofSymbols text
  · intro s named
    have rule := (findings ns mem).2
    rw [named] at rule
    simp only [Finding.ofMembers, named, Reading.text?, Option.map_some]
    rw [Text.symbols_ofSymbols rule]

end FileFindings

/-! ## Texts -/

def Reading.value (results : Text) : Except Json.Fault Value :=
  if Text.trim results = [] then .ok .null else Json.decode results

def FileFindings.read (results : Text) : Except Json.Fault (List FileFindings × List Event) :=
  (Reading.value results).map fun v => (ofValue v, valueEvents v)

/-- Whether a report on a text of results has half of a surrogate pair to show. -/
def Reading.showsHalf (results : Text) : Bool :=
  match Reading.value results with
  | .ok v => FileFindings.valueShowsHalf v
  | .error _ => false

def Reading.complaint (results : Text) : Json.Fault → Text
  | .malformed cause position =>
    "Invalid results JSON: ".toList ++ Json.describe results cause position
  | .numeral e => e.message

namespace FileFindings

theorem exists_members_of_mem_ofValue {v : Value} {f : FileFindings} (h : f ∈ ofValue v) :
    ∃ ms, f = ofMembers ms := by
  unfold ofValue at h
  split at h
  · obtain ⟨ms, -, rfl⟩ := List.mem_map.mp h
    exact ⟨ms, rfl⟩
  · cases h

theorem exists_members_of_read {results : Text} {files : List FileFindings} {events : List Event}
    (h : FileFindings.read results = .ok (files, events)) {f : FileFindings} (hf : f ∈ files) :
    ∃ ms, f = ofMembers ms := by
  unfold FileFindings.read at h
  cases hv : Reading.value results with
  | error e => simp [hv, Except.map] at h
  | ok v =>
    simp only [hv, Except.map, Except.ok.injEq, Prod.mk.injEq] at h
    exact exists_members_of_mem_ofValue (h.1 ▸ hf)

theorem exists_members_of_mem_findings {ms : Members} {m : Finding}
    (h : m ∈ (ofMembers ms).findings) : ∃ ns, m = Finding.ofMembers ns := by
  obtain ⟨ns, -, rfl⟩ := List.mem_map.mp h
  exact ⟨ns, rfl⟩

end FileFindings

end LintReport
