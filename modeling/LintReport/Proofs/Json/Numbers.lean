/-
  LintReport.Proofs.Json.Numbers — the numbers in a decoded value are short enough to be written.

  An integer is read only up to the greatest length, and any other number is a double-precision one,
  whose integer part has far fewer digits. The decoder makes no numbers of its own, so every number
  in the value it ends with is short, however deep it stands and whatever stands around it.

  Proved:
  - `writable_step`: a step keeps all numbers short that the state holds.
  - `writable_decode`: all numbers of a decoded value are short.
-/

import LintReport.Json.Decode
import LintReport.Proofs.Number.Binary64
import LintReport.Proofs.Text.Lookup
import LintReport.Proofs.Text.Numeral

namespace LintReport.Json

open Text (Numeral.Short Numeral.readDigits)
open Number (Binary64)

/-! ## Values -/

/-- Every number in the value is short, its fraction dropped. -/
inductive Value.Writable : Value → Prop
  | null : Value.null.Writable
  | bool (b : Bool) : (Value.bool b).Writable
  | int {n : Int} (short : Numeral.Short n) : (Value.int n).Writable
  | float {x : Binary64} (short : ∀ n, x.truncate? = some n → Numeral.Short n) :
      (Value.float x).Writable
  | text (s : List Text.Symbol) : (Value.text s).Writable
  | array {items : List Value} (each : ∀ v ∈ items, v.Writable) : (Value.array items).Writable
  | object {members : Members} (each : ∀ m ∈ members, m.2.Writable) : (Value.object members).Writable

def Members.Writable (ms : Members) : Prop := ∀ m ∈ ms, m.2.Writable

theorem Members.Writable.put {ms : Members} {v : Value} (h : ms.Writable) (hv : v.Writable)
    (key : Key) : (ms.put key v).Writable := by
  induction ms with
  | nil =>
    intro m hm
    cases List.mem_singleton.mp hm
    exact hv
  | cons m ms ih =>
    have first := h m List.mem_cons_self
    have rest : Members.Writable ms := fun n hn => h n (List.mem_cons_of_mem m hn)
    unfold Members.put
    split
    · exact List.forall_mem_cons.mpr ⟨hv, rest⟩
    · exact List.forall_mem_cons.mpr ⟨first, ih rest⟩

theorem Members.Writable.get? {ms : Members} {key : Key} {v : Value} (h : ms.Writable)
    (found : ms.get? key = some v) : v.Writable :=
  h (key, v) (mem_of_lookup found)

/-! ## Tokens -/

def Token.Writable : Token → Prop
  | .word v => v.Writable
  | .integer _ digits => ∀ c ∈ digits, c.isDigit = true
  | _ => True

theorem writable_words : ∀ w ∈ words, w.2.Writable := by
  simp only [words, List.forall_mem_cons, List.not_mem_nil, false_implies, implies_true, and_true]
  exact ⟨.null, .bool true, .bool false, .float nofun, .float nofun, .float nofun⟩

theorem writable_punctuation : ∀ p ∈ punctuation, p.2.Writable := by
  simp [punctuation, Token.Writable]

theorem isDigit_whole {s : Text} {x : Lexeme} (h : lexeme? s = some x) :
    ∀ c ∈ x.whole, c.isDigit = true := by
  unfold lexeme? at h
  dsimp only at h
  split at h
  · rw [if_neg (List.cons_ne_nil _ _)] at h
    cases h
    intro c hc
    cases List.mem_singleton.mp hc
    rfl
  · split at h
    · cases h
    · cases h
      exact fun c hc => List.all_eq_true.mp List.all_takeWhile c hc

theorem writable_lexeme {s : Text} {x : Lexeme} (h : lexeme? s = some x) : x.token.Writable := by
  unfold Lexeme.token
  split
  · exact isDigit_whole h
  · trivial

theorem writable_tokenAt (pos : Nat) (c : Char) (cs : Text) : (tokenAt pos c cs).1.Writable := by
  unfold tokenAt
  split
  · rename_i t h
    exact writable_punctuation (c, t) (mem_of_lookup h)
  · split
    · split <;> trivial
    · split
      · rename_i name value h
        exact writable_words (name, value) (List.mem_of_find?_eq_some h)
      · split
        · rename_i h
          exact writable_lexeme h
        · trivial

theorem writable_tokensFrom (skip pos : Nat) (s : Text) :
    ∀ t ∈ tokensFrom skip pos s, t.token.Writable := by
  induction s generalizing skip pos with
  | nil =>
    intro t ht
    cases ht
  | cons c cs ih =>
    cases skip with
    | succ k => exact ih k (pos + 1)
    | zero =>
      rw [tokensFrom]
      split
      · exact ih 0 (pos + 1)
      · exact List.forall_mem_cons.mpr ⟨writable_tokenAt pos c cs, ih _ (pos + 1)⟩

/-! ## States -/

def Frame.Writable : Frame → Prop
  | .array items => ∀ v ∈ items, v.Writable
  | .object members _ => members.Writable

def State.Writable : State → Prop
  | .value outer | .item outer => ∀ f ∈ outer, f.Writable
  | .key members _ outer | .colon members _ outer => members.Writable ∧ ∀ f ∈ outer, f.Writable
  | .complete v outer => v.Writable ∧ ∀ f ∈ outer, f.Writable

theorem writable_valueStep {outer : List Frame} {t : Placed} {s : State}
    (ho : ∀ f ∈ outer, f.Writable) (ht : t.token.Writable) (h : valueStep outer t = .ok s) :
    s.Writable := by
  unfold valueStep at h
  cases token : t.token with
  | arrayOpen =>
    rw [token] at h
    cases h
    exact ho
  | objectOpen =>
    rw [token] at h
    cases h
    exact ⟨nofun, ho⟩
  | word v =>
    rw [token] at h ht
    cases h
    exact ⟨ht, ho⟩
  | integer negative digits =>
    rw [token] at h ht
    dsimp only at h
    split at h
    · rename_i n read
      have short := Text.Numeral.short_of_readDigits ht read
      cases h
      refine ⟨.int ?_, ho⟩
      split
      · exact Text.Numeral.short_neg.mpr short
      · exact short
    · cases h
  | decimal x =>
    rw [token] at h
    cases h
    exact ⟨.float fun n part => Text.Numeral.short_of_natAbs_le
      (Binary64.natAbs_truncate?_ofDecimal_le part) (by decide), ho⟩
  | text s =>
    rw [token] at h
    cases h
    exact ⟨.text s, ho⟩
  | _ =>
    rw [token] at h
    cases h

/-- A step keeps all numbers short that the state holds. -/
theorem writable_step {s s' : State} {t : Placed} (hs : s.Writable) (ht : t.token.Writable)
    (h : step s t = .ok s') : s'.Writable := by
  cases s with
  | value outer => exact writable_valueStep hs ht h
  | item outer =>
    simp only [step] at h
    split at h
    · cases h
      exact ⟨.array nofun, hs⟩
    · have opened : (Frame.array []).Writable := fun v hv => nomatch hv
      exact writable_valueStep (List.forall_mem_cons.mpr ⟨opened, hs⟩) ht h
  | key members mayClose outer =>
    obtain ⟨hm, ho⟩ := hs
    simp only [step] at h
    split at h
    · cases h
      exact ⟨hm, ho⟩
    · cases h
    · split at h
      · cases h
        exact ⟨.object hm, ho⟩
      · cases h
    · cases h
  | colon members key outer =>
    obtain ⟨hm, ho⟩ := hs
    simp only [step] at h
    split at h
    · cases h
      exact List.forall_mem_cons.mpr ⟨hm, ho⟩
    · cases h
  | complete v outer =>
    obtain ⟨hv, ho⟩ := hs
    cases outer with
    | nil => cases h
    | cons frame outer =>
      obtain ⟨hf, rest⟩ := List.forall_mem_cons.mp ho
      cases frame with
      | array items =>
        have grown : ∀ w ∈ v :: items, w.Writable := List.forall_mem_cons.mpr ⟨hv, hf⟩
        simp only [step] at h
        split at h
        · cases h
          exact List.forall_mem_cons.mpr ⟨grown, rest⟩
        · cases h
          exact ⟨.array fun w hw => grown w (List.mem_reverse.mp hw), rest⟩
        · cases h
      | object members key =>
        have grown : (members.put key v).Writable := Members.Writable.put hf hv key
        simp only [step] at h
        split at h
        · cases h
          exact ⟨grown, rest⟩
        · cases h
          exact ⟨.object grown, rest⟩
        · cases h

theorem writable_run {ts : List Placed} {s s' : State} (hs : s.Writable)
    (ht : ∀ t ∈ ts, t.token.Writable) (h : ts.foldlM step s = .ok s') : s'.Writable := by
  induction ts generalizing s with
  | nil =>
    cases h
    exact hs
  | cons t ts ih =>
    obtain ⟨first, others⟩ := List.forall_mem_cons.mp ht
    rw [List.foldlM_cons] at h
    cases stepped : step s t with
    | error fault =>
      rw [stepped] at h
      cases h
    | ok u =>
      rw [stepped] at h
      exact ih (writable_step hs first stepped) others h

/-- All numbers of a decoded value are short. -/
theorem writable_decode {text : Text} {v : Value} (h : decode text = .ok v) : v.Writable := by
  obtain ⟨-, run⟩ := decode_eq_ok_iff.mp h
  have start : (State.value []).Writable := nofun
  exact (writable_run start (writable_tokensFrom 0 0 text) run).1

end LintReport.Json
