/-
  LintReport.Json.Decode — the value a JSON text stands for, or the first thing wrong with it.

  The decoder takes the tokens one by one. Its state says what may come next and holds the
  containers still open around that place, the innermost first.

  Proved:
  - `decode_eq_ok_iff`: a text is decoded exactly when it does not start with a byte order mark
    and its tokens lead to a value with nothing open around it.
-/

import LintReport.Json.Token

namespace LintReport.Json

open Text (Numeral.readDigits)
open Number (Binary64)

/-- A container whose end has not come: an array with its items so far, the last first, or an
object with its members and the key that waits for its value. -/
inductive Frame where
  | array (items : List Value)
  | object (members : Members) (key : Key)

inductive State where
  | value (outer : List Frame)
  /-- An array has just been opened. -/
  | item (outer : List Frame)
  /-- A key must come; an object that has just been opened may also close. -/
  | key (members : Members) (mayClose : Bool) (outer : List Frame)
  | colon (members : Members) (key : Key) (outer : List Frame)
  /-- A value is complete. -/
  | complete (value : Value) (outer : List Frame)

def valueStep (outer : List Frame) (t : Placed) : Except Fault State :=
  match t.token with
  | .arrayOpen => .ok (.item outer)
  | .objectOpen => .ok (.key [] true outer)
  | .word v => .ok (.complete v outer)
  | .integer negative digits =>
    match Numeral.readDigits digits with
    | .ok n => .ok (.complete (.int (if negative then -n else n)) outer)
    | .error e => .error (.numeral e)
  | .decimal x => .ok (.complete (.float (Binary64.ofDecimal x)) outer)
  | .text s => .ok (.complete (.text s) outer)
  | .brokenText cause position => .error (.malformed cause position)
  | _ => .error (.malformed .value t.position)

def step : State → Placed → Except Fault State
  | .value outer, t => valueStep outer t
  | .item outer, t =>
    match t.token with
    | .arrayClose => .ok (.complete (.array []) outer)
    | _ => valueStep (.array [] :: outer) t
  | .key members mayClose outer, t =>
    match t.token with
    | .text s => .ok (.colon members s outer)
    | .brokenText cause position => .error (.malformed cause position)
    | .objectClose =>
      if mayClose then .ok (.complete (.object members) outer)
      else .error (.malformed .propertyName t.position)
    | _ => .error (.malformed .propertyName t.position)
  | .colon members key outer, t =>
    match t.token with
    | .colon => .ok (.value (.object members key :: outer))
    | _ => .error (.malformed .colon t.position)
  | .complete _ [], t => .error (.malformed .extraData t.position)
  | .complete v (.array items :: outer), t =>
    match t.token with
    | .comma => .ok (.value (.array (v :: items) :: outer))
    | .arrayClose => .ok (.complete (.array (v :: items).reverse) outer)
    | _ => .error (.malformed .comma t.position)
  | .complete v (.object members key :: outer), t =>
    match t.token with
    | .comma => .ok (.key (members.put key v) false outer)
    | .objectClose => .ok (.complete (.object (members.put key v)) outer)
    | _ => .error (.malformed .comma t.position)

/-- What a text that ends here, after `length` characters, stands for. -/
def finish (length : Nat) : State → Except Fault Value
  | .value _ | .item _ => .error (.malformed .value length)
  | .key _ _ _ => .error (.malformed .propertyName length)
  | .colon _ _ _ => .error (.malformed .colon length)
  | .complete v [] => .ok v
  | .complete _ (_ :: _) => .error (.malformed .comma length)

def byteOrderMark : Char := '\ufeff'

def decode (text : Text) : Except Fault Value :=
  if text.head? = some byteOrderMark then .error (.malformed .byteOrderMark 0)
  else
    match (tokens text).foldlM step (.value []) with
    | .ok state => finish text.length state
    | .error fault => .error fault

theorem finish_eq_ok_iff {length : Nat} {state : State} {v : Value} :
    finish length state = .ok v ↔ state = .complete v [] := by
  cases state with
  | complete w outer => cases outer <;> simp [finish]
  | _ => simp [finish]

theorem decode_eq_ok_iff {text : Text} {v : Value} :
    decode text = .ok v ↔
      text.head? ≠ some byteOrderMark ∧
        (tokens text).foldlM step (.value []) = .ok (.complete v []) := by
  rw [decode]
  split
  · simp_all
  · split <;> simp_all [finish_eq_ok_iff]

end LintReport.Json
