/-
  LintReport.Proofs.Finding.Malformed — items of the results that are no objects.

  Results are a list of files, and a file has a list of messages; an item of either that is no
  object is left out, and a warning is noted for it. Leaving it out is all that happens: taking such
  items out of the results beforehand gives the same files, and the same log but for the warnings.

  The warnings tell of the items in the order in which they stand in the results, the one for a
  message with the path of its file. Between them other records may stand, on severities and
  versions that are unknown; those are no warnings.

  Proved:
  - `named?_sift_of_ne`: in a sifted file only the messages have changed.
  - `ofMembers_sift` / `events_sift`: a file is read from its sifted members as before, and what is
    noted is the same but for the warnings.
  - `warnings_events`: the warnings on one file are those for its items, in order.
  - `malformed_skipped`: all of this for results, and what is noted of a value that is no list.
-/

import LintReport.Finding.Reading
import Mathlib.Data.List.Basic

namespace LintReport

open Json (Value Members Key)
open Log (Event Level)
open Text (symbols)

/-! ## Objects among items -/

def Json.Value.isObject (v : Value) : Bool := v.members?.isSome

namespace Reading

def objects (vs : List Value) : List Value := vs.filter (·.isObject)

def others (vs : List Value) : List Value := vs.filter (!·.isObject)

def siftMessages : Value → Value
  | .array vs => .array (objects vs)
  | v => v

def messagesKey : Key := symbols "messages".toList

def siftMembers (ms : Members) : Members :=
  ms.map fun m => (m.1, if m.1 = messagesKey then siftMessages m.2 else m.2)

def siftFile : Value → Value
  | .object ms => .object (siftMembers ms)
  | v => v

/-- The results without the items that are no objects, in the list of files and in the messages of
each file. -/
def sift : Value → Value
  | .array vs => .array ((objects vs).map siftFile)
  | v => v

/-- An item that is left out: of the list of files, or of the messages of the file at a path. -/
inductive Skipped where
  | file (item : Value)
  | message (path : Text) (item : Value)

def Skipped.notice : Skipped → Text
  | .file item => "Skipping malformed file result: ".toList ++ item.write
  | .message path item =>
    "Skipping malformed message in ".toList ++ path ++ ": ".toList ++ item.write

/-- What is left out of one item of the list of files: its own messages, or the whole item. -/
def skippedOf : Value → List Skipped
  | .object (ms : Members) =>
    (others (items (ms.named? "messages"))).map (.message (text (ms.named? "filePath")))
  | item => [.file item]

def skipped (vs : List Value) : List Skipped := vs.flatMap skippedOf

def isWarning (e : Event) : Bool := e.level = Level.warning

def warnings (events : List Event) : List Text := (events.filter isWarning).map Event.message

def unwarned (events : List Event) : List Event := events.filter (!isWarning ·)

/-! ## Records -/

theorem warnings_append (es fs : List Event) :
    warnings (es ++ fs) = warnings es ++ warnings fs := by
  simp only [warnings, List.filter_append, List.map_append]

theorem warnings_flatMap {α : Type} (f : α → List Event) (xs : List α) :
    warnings (xs.flatMap f) = xs.flatMap fun x => warnings (f x) := by
  simp only [warnings, List.filter_flatMap, List.map_flatMap]

theorem unwarned_append (es fs : List Event) :
    unwarned (es ++ fs) = unwarned es ++ unwarned fs := List.filter_append _ _

theorem unwarned_flatMap {α : Type} (f : α → List Event) (xs : List α) :
    unwarned (xs.flatMap f) = xs.flatMap fun x => unwarned (f x) := List.filter_flatMap

/-- Records on severities and versions are no warnings. -/
theorem severityEvents_quiet (v : Option Value) : ∀ e ∈ Severity.events v, isWarning e = false := by
  intro e he
  unfold Severity.events at he
  split at he
  · split at he
    · cases he
    · rw [List.mem_singleton.mp he]
      rfl
  · cases he

theorem scopeEvents_quiet (v : Option Value) : ∀ e ∈ Scope.events v, isWarning e = false := by
  intro e he
  unfold Scope.events at he
  split at he
  · cases he
  · cases he
  · split at he
    · cases he
    · rw [List.mem_singleton.mp he]
      rfl

theorem warnings_of_quiet {es : List Event} (h : ∀ e ∈ es, isWarning e = false) :
    warnings es = [] := by
  have none : es.filter isWarning = [] := by simpa using h
  rw [warnings, none, List.map_nil]

theorem unwarned_of_quiet {es : List Event} (h : ∀ e ∈ es, isWarning e = false) :
    unwarned es = es := by
  refine List.filter_eq_self.mpr fun e he => ?_
  rw [h e he]
  rfl

/-! ## Items -/

theorem filterMap_objects (vs : List Value) :
    (objects vs).filterMap Value.members? = vs.filterMap Value.members? := by
  rw [objects, List.filterMap_filter]
  refine List.filterMap_congr fun v _ => ?_
  cases object : v.members? <;> simp [Value.isObject, object]

theorem length_objects (vs : List Value) :
    (objects vs).length = (vs.filterMap Value.members?).length := by
  rw [List.length_filterMap_eq_countP, objects, List.countP_eq_length_filter]
  rfl

/-- What is noted of the objects is what is noted of all items without that of the others. -/
theorem flatMap_objects {α : Type} {f g : Value → List α}
    (object : ∀ v, v.isObject = true → g v = f v) (other : ∀ v, v.isObject = false → g v = [])
    (vs : List Value) :
    (objects vs).flatMap f = vs.flatMap g := by
  induction vs with
  | nil => rfl
  | cons v vs ih =>
    unfold objects at ih ⊢
    cases kind : v.isObject with
    | true =>
      rw [List.filter_cons_of_pos kind, List.flatMap_cons, List.flatMap_cons, ih, object v kind]
    | false =>
      rw [List.filter_cons_of_neg (by rw [kind]; exact Bool.false_ne_true), List.flatMap_cons, ih,
        other v kind, List.nil_append]

/-- What is said of each item that is no object, one by one. -/
theorem flatMap_others {α : Type} (f : Value → α) (vs : List Value) :
    (vs.flatMap fun v => if v.isObject then [] else [f v]) = (others vs).map f := by
  induction vs with
  | nil => rfl
  | cons v vs ih =>
    rw [List.flatMap_cons, ih]
    unfold others
    cases kind : v.isObject <;> simp [kind]

/-- One item of a file's messages: an object is noted as before, another is the warning. -/
theorem unwarned_itemEvents (path : Text) (item : Value) :
    unwarned (FileFindings.itemEvents path item) =
      if item.isObject then FileFindings.itemEvents path item else [] := by
  unfold FileFindings.itemEvents Value.isObject
  cases item.members? with
  | none => rfl
  | some ms => exact unwarned_of_quiet (severityEvents_quiet _)

theorem warnings_itemEvents (path : Text) (item : Value) :
    warnings (FileFindings.itemEvents path item) =
      if item.isObject then [] else [Skipped.notice (.message path item)] := by
  unfold FileFindings.itemEvents Value.isObject
  cases item.members? with
  | none => rfl
  | some ms => exact warnings_of_quiet (severityEvents_quiet _)

/-! ## Files -/

/-- In a sifted file only the messages have changed. -/
theorem get?_sift (ms : Members) (key : Key) :
    Members.get? (siftMembers ms) key =
      (ms.get? key).map fun v => if key = messagesKey then siftMessages v else v := by
  induction ms with
  | nil => rfl
  | cons m ms ih =>
    obtain ⟨other, v⟩ := m
    unfold siftMembers Members.get? at ih ⊢
    rw [List.map_cons, List.lookup_cons, List.lookup_cons, ih]
    by_cases here : key = other
    · rw [here, beq_self_eq_true]
      rfl
    · rw [beq_eq_false_iff_ne.mpr here]

theorem named?_sift_of_ne {name : String} (h : name ≠ "messages") (ms : Members) :
    Members.named? (siftMembers ms) name = ms.named? name := by
  have other : symbols name.toList ≠ messagesKey :=
    fun same => h (String.toList_injective (Text.symbols_inj same))
  rw [Members.named?, get?_sift, Members.named?]
  simp only [if_neg other, Option.map_id']

theorem items_sift (ms : Members) :
    items (Members.named? (siftMembers ms) "messages") =
      objects (items (ms.named? "messages")) := by
  have key : symbols "messages".toList = messagesKey := rfl
  rw [Members.named?, Members.named?, key, get?_sift]
  cases ms.get? messagesKey with
  | none => rfl
  | some v =>
    rw [Option.map_some, if_pos rfl]
    cases v <;> rfl

/-- A file is read from its sifted members as before. -/
theorem ofMembers_sift (ms : Members) :
    FileFindings.ofMembers (siftMembers ms) = FileFindings.ofMembers ms := by
  unfold FileFindings.ofMembers
  rw [items_sift, filterMap_objects]
  simp (disch := decide) only [named?_sift_of_ne]

/-- What is noted of a sifted file is the same without the warnings. -/
theorem events_sift (ms : Members) :
    FileFindings.events (siftMembers ms) = unwarned (FileFindings.events ms) := by
  unfold FileFindings.events
  rw [items_sift, unwarned_append, unwarned_flatMap, unwarned_of_quiet (scopeEvents_quiet _)]
  simp (disch := decide) only [named?_sift_of_ne, unwarned_itemEvents]
  congr 1
  exact flatMap_objects (fun _ object => if_pos object) (fun _ other => by rw [other]; rfl) _

/-- The warnings on a file are those for its items that are no objects, in order. -/
theorem warnings_events (ms : Members) :
    warnings (FileFindings.events ms) = (skippedOf (.object ms)).map Skipped.notice := by
  unfold FileFindings.events skippedOf
  rw [warnings_append, warnings_flatMap, warnings_of_quiet (scopeEvents_quiet _), List.append_nil,
    List.map_map]
  simp only [warnings_itemEvents]
  exact flatMap_others _ _

/-! ## Lists of files -/

theorem members?_siftFile (v : Value) : (siftFile v).members? = v.members?.map siftMembers := by
  cases v <;> rfl

/-- One item of the list of files: an object is noted without the warnings on its messages, another
is the warning. -/
theorem unwarned_resultEvents (v : Value) :
    unwarned (FileFindings.resultEvents v) =
      if v.isObject then FileFindings.resultEvents (siftFile v) else [] := by
  unfold FileFindings.resultEvents Value.isObject
  rw [members?_siftFile]
  cases v.members? with
  | none => rfl
  | some ms => exact (events_sift ms).symm

theorem warnings_resultEvents (v : Value) :
    warnings (FileFindings.resultEvents v) = (skippedOf v).map Skipped.notice := by
  cases v with
  | object ms => exact warnings_events ms
  | _ => rfl

/-- The sifted files are read as before. -/
theorem ofItems_sift (vs : List Value) :
    FileFindings.ofItems ((objects vs).map siftFile) = FileFindings.ofItems vs := by
  have members : ((objects vs).map siftFile).filterMap Value.members? =
      (vs.filterMap Value.members?).map siftMembers := by
    rw [List.filterMap_map, ← filterMap_objects, List.map_filterMap]
    exact List.filterMap_congr fun v _ => members?_siftFile v
  unfold FileFindings.ofItems
  rw [members, List.map_map]
  exact List.map_congr_left fun ms _ => ofMembers_sift ms

theorem valueEvents_sift (vs : List Value) :
    FileFindings.valueEvents (sift (.array vs)) =
      unwarned (FileFindings.valueEvents (.array vs)) := by
  -- Behind the records on the files stands how many were read, and that has not changed either.
  show ((objects vs).map siftFile).flatMap FileFindings.resultEvents
    ++ [.loaded (FileFindings.ofItems ((objects vs).map siftFile)).length] = _
  have files : ((objects vs).map siftFile).flatMap FileFindings.resultEvents =
      unwarned (vs.flatMap FileFindings.resultEvents) := by
    rw [List.flatMap_map, unwarned_flatMap]
    simp only [unwarned_resultEvents]
    exact flatMap_objects (fun _ object => if_pos object) (fun _ other => by rw [other]; rfl) _
  rw [ofItems_sift, files, FileFindings.valueEvents, unwarned_append]
  rfl

theorem warnings_valueEvents (vs : List Value) :
    warnings (FileFindings.valueEvents (.array vs)) = (skipped vs).map Skipped.notice := by
  have loaded (n : Nat) : warnings [.loaded n] = [] := rfl
  rw [FileFindings.valueEvents, warnings_append, warnings_flatMap, loaded, List.append_nil, skipped,
    List.map_flatMap]
  simp only [warnings_resultEvents]

/-- A file has as many findings as its messages hold objects. -/
theorem length_findings_ofMembers (ms : Members) :
    (FileFindings.ofMembers ms).findings.length =
      (objects (items (ms.named? "messages"))).length := by
  rw [length_objects, FileFindings.ofMembers, List.length_map]

theorem items_of_no_list {v : Option Value} (h : ∀ vs, v ≠ some (.array vs)) : items v = [] := by
  unfold items
  split
  · exact absurd rfl (h _)
  · rfl

end Reading

open Reading

namespace FileFindings

/-- Items that are no objects are left out of results, and that is all: results without them are
read as the same files, with the same log but for the warnings. There are as many files as objects
in the list, and as many findings in each as objects in its messages. The warnings are one for each
item that is left out, in order, those on messages with the path of the file. A value that is no
list holds no files; there is one warning on it, but none on null. -/
theorem malformed_skipped (vs : List Value) :
    let results := Value.array vs
    ofValue (sift results) = ofValue results ∧
      valueEvents (sift results) = unwarned (valueEvents results) ∧
      (ofValue results).length = (objects vs).length ∧
      (ofValue results).map (·.findings.length) =
        (vs.filterMap Value.members?).map
          (fun ms => (objects (items (ms.named? "messages"))).length) ∧
      (∀ ms : Members, (∀ ws, ms.named? "messages" ≠ some (.array ws)) →
        (ofMembers ms).findings = []) ∧
      warnings (valueEvents results) = (skipped vs).map Skipped.notice ∧
      (ofValue .null = [] ∧ valueEvents .null = []) ∧
      ∀ v, v ≠ .null → (∀ ws, v ≠ .array ws) →
        ofValue v = [] ∧ valueEvents v = [.notAList v] ∧
          warnings (valueEvents v) =
            ["Expected a list of file results, got ".toList ++ v.kind] := by
  intro results
  refine ⟨ofItems_sift vs, valueEvents_sift vs, ?_, ?_, ?_, warnings_valueEvents vs, ⟨rfl, rfl⟩, ?_⟩
  · show (ofItems vs).length = _
    rw [length_objects, ofItems, List.length_map]
  · show ((vs.filterMap Value.members?).map ofMembers).map (·.findings.length) = _
    rw [List.map_map]
    exact List.map_congr_left fun ms _ => length_findings_ofMembers ms
  · intro ms none
    rw [ofMembers, items_of_no_list none]
    rfl
  · intro v notNull notList
    cases v with
    | null => exact absurd rfl notNull
    | array ws => exact absurd rfl (notList ws)
    | _ => exact ⟨rfl, rfl, rfl⟩

/-- A number and a list among two files, of which one has messages that are no objects beside one
with an unknown severity, and the other a number for its messages; and a value that is no list. -/
theorem malformed_skipped_nested :
    let key (name : String) : Key := symbols name.toList
    let named (path : String) : Key × Value := (key "filePath", .text (key path))
    let odd : Members := [(key "severity", .int 7)]
    let first : Members :=
      [(key "messages", .array [.null, .object odd, .text (key "x")]), named "a"]
    let second : Members := [named "b", (key "messages", .int 5)]
    let results := Value.array [.int 3, .object first, .array [.null], .object second]
    ofValue (sift results) = ofValue results ∧
      (ofValue results).map (·.findings.length) = [1, 0] ∧
      ((∀ ws, second.named? "messages" ≠ some (.array ws)) ∧ (ofMembers second).findings = []) ∧
      warnings (valueEvents results) =
        ["Skipping malformed file result: 3".toList,
          "Skipping malformed message in a: None".toList,
          "Skipping malformed message in a: 'x'".toList,
          "Skipping malformed file result: [None]".toList] ∧
      ((Value.bool true ≠ .null ∧ ∀ ws, Value.bool true ≠ .array ws) ∧
        warnings (valueEvents (.bool true)) =
          ["Expected a list of file results, got bool".toList]) := by
  intro key named odd first second results
  obtain ⟨same, -, -, counted, without, said, -, other⟩ :=
    malformed_skipped [.int 3, .object first, .array [.null], .object second]
  have noList : ∀ ws, second.named? "messages" ≠ some (.array ws) := by
    intro ws messages
    cases messages
  have notNull : Value.bool true ≠ .null := nofun
  have notList : ∀ ws, Value.bool true ≠ .array ws := nofun
  obtain ⟨-, -, warned⟩ := other (.bool true) notNull notList
  exact ⟨same, counted.trans (by decide +kernel), ⟨noList, without second noList⟩,
    said.trans (by decide +kernel), ⟨notNull, notList⟩, warned.trans (by decide +kernel)⟩

end FileFindings

end LintReport
