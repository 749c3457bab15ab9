/-
  LintReport.Json.Value — JSON values as a decoder sees them.

  A number without fraction and exponent is an integer of any size, any other a double-precision
  number, which may be one that JSON itself has no numeral for. A text holds symbols and not
  characters, since an escape can name half a surrogate pair. The members of an object keep their
  order.

  Proved:
  - `get?_put_self` / `get?_put_of_ne`: putting a member sets that one and leaves the others.
  - `keys_put`: a key that is there keeps its place, a new one comes last.
-/

import LintReport.Number.Binary64
import LintReport.Text.Quoted

namespace LintReport.Json

open Text (Symbol symbols)
open Number (Binary64)

abbrev Key := List Symbol

inductive Value where
  | null
  | bool (b : Bool)
  | int (n : Int)
  | float (x : Binary64)
  | text (s : List Symbol)
  | array (items : List Value)
  | object (members : List (Key × Value))
  deriving Inhabited

abbrev Members := List (Key × Value)

namespace Members

def get? (ms : Members) (key : Key) : Option Value := ms.lookup key

def named? (ms : Members) (name : String) : Option Value := ms.get? (symbols name.toList)

/-- A later member of the same key takes the value and not the place. -/
def put (key : Key) (value : Value) : Members → Members
  | [] => [(key, value)]
  | m :: ms => if m.1 = key then (key, value) :: ms else m :: put key value ms

@[simp] theorem get?_put_self (key : Key) (value : Value) (ms : Members) :
    (put key value ms).get? key = some value := by
  induction ms with
  | nil => simp [put, get?]
  | cons m ms ih =>
    obtain ⟨k, v⟩ := m
    rw [put]
    split
    · simp [get?]
    · rename_i h
      simpa [get?, List.lookup_cons, beq_eq_false_iff_ne.2 (Ne.symm h)] using ih

theorem get?_put_of_ne {key other : Key} (h : other ≠ key) (value : Value) (ms : Members) :
    (put key value ms).get? other = ms.get? other := by
  induction ms with
  | nil => simp [put, get?, List.lookup_cons, beq_eq_false_iff_ne.2 h]
  | cons m ms ih =>
    obtain ⟨k, v⟩ := m
    rw [put]
    split
    · rename_i hm
      simp [get?, List.lookup_cons, show k = key from hm, beq_eq_false_iff_ne.2 h]
    · simp only [get?, List.lookup_cons] at ih ⊢
      rw [ih]

theorem keys_put (key : Key) (value : Value) (ms : Members) :
    (put key value ms).map (·.1) =
      if key ∈ ms.map (·.1) then ms.map (·.1) else ms.map (·.1) ++ [key] := by
  induction ms with
  | nil => simp [put]
  | cons m ms ih =>
    rw [put]
    by_cases h : m.1 = key
    · simp [h]
    · rw [if_neg h, List.map_cons, ih, List.map_cons]
      by_cases hk : key ∈ ms.map (·.1) <;> simp [hk, Ne.symm h]

end Members

def Value.members? : Value → Option Members
  | .object ms => some ms
  | _ => none

def Value.kind : Value → Text
  | .null => "NoneType".toList
  | .bool _ => "bool".toList
  | .int _ => "int".toList
  | .float _ => "float".toList
  | .text _ => "str".toList
  | .array _ => "list".toList
  | .object _ => "dict".toList

end LintReport.Json
