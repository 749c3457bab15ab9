/-
  LintReport.Proofs.Json.Integers — the JSON texts that are refused for the length of an integer.

  The decoder stops at the first token that is wrong. Most are wrong for where they stand; an
  integer can also be wrong where it may stand, when it has more digits than are read.

  Proved:
  - `step_eq_numeral_iff`: in one step only an integer that is too long is refused for its length.
  - `exists_decode_eq_numeral_iff`: a text is refused so when it is JSON up to such an integer.
  - `hasLongInteger_digits`: a run of digits is such a text when it is too long.
-/

import LintReport.Json.Decode

namespace LintReport.Json

open Text (Numeral.readDigits Numeral.maxDigits)

def State.WantsValue : State → Prop
  | .value _ | .item _ => True
  | _ => False

theorem valueStep_eq_numeral_iff {outer : List Frame} {t : Placed} {e : Text.Numeral.Error} :
    valueStep outer t = .error (.numeral e) ↔
      ∃ negative digits, t.token = .integer negative digits ∧
        Numeral.readDigits digits = .error e := by
  unfold valueStep
  cases t.token with
  | integer negative digits =>
    cases h : Numeral.readDigits digits with
    | ok n => simp [h]
    | error e' =>
      simp only [h]
      constructor
      · rintro ⟨⟩
        exact ⟨negative, digits, rfl, h⟩
      · rintro ⟨_, _, ⟨⟩, h'⟩
        rw [h] at h'
        cases h'
        rfl
  | _ => simp

/-- In one step only an integer where a value may come is refused for its length. -/
theorem step_eq_numeral_iff {state : State} {t : Placed} {e : Text.Numeral.Error} :
    step state t = .error (.numeral e) ↔
      state.WantsValue ∧ ∃ negative digits, t.token = .integer negative digits ∧
        Numeral.readDigits digits = .error e := by
  cases state with
  | value outer => simp only [step, State.WantsValue, true_and, valueStep_eq_numeral_iff]
  | item outer =>
    simp only [step, State.WantsValue, true_and]
    split
    · rename_i h
      simp [h]
    · exact valueStep_eq_numeral_iff
  | key members mayClose outer =>
    simp only [step, State.WantsValue, false_and, iff_false]
    split <;> (try split) <;> simp
  | colon members key outer =>
    simp only [step, State.WantsValue, false_and, iff_false]
    split <;> simp
  | complete v outer =>
    simp only [State.WantsValue, false_and, iff_false]
    cases outer with
    | nil => simp [step]
    | cons frame outer =>
      cases frame <;> simp only [step] <;> split <;> simp

/-- A run of steps fails at the first one that does. -/
theorem foldlM_eq_error_iff {σ α ε : Type} {f : σ → α → Except ε σ} {xs : List α} {s : σ} {e : ε} :
    xs.foldlM f s = .error e ↔
      ∃ before x after t, xs = before ++ x :: after ∧ before.foldlM f s = .ok t ∧
        f t x = .error e := by
  induction xs generalizing s with
  | nil => simp [pure, Except.pure]
  | cons y ys ih =>
    rw [List.foldlM_cons]
    constructor
    · intro h
      cases first : f s y with
      | error e' =>
        rw [first] at h
        cases h
        exact ⟨[], y, ys, s, rfl, rfl, first⟩
      | ok u =>
        rw [first] at h
        obtain ⟨before, x, after, t, rfl, run, fails⟩ := ih.mp h
        refine ⟨y :: before, x, after, t, rfl, ?_, fails⟩
        rw [List.foldlM_cons, first]
        exact run
    · intro h
      obtain ⟨before, x, after, t, split, run, fails⟩ := h
      cases before with
      | nil =>
        cases run
        obtain ⟨rfl, rfl⟩ := List.cons_eq_cons.mp split
        rw [fails]
        rfl
      | cons z before =>
        obtain ⟨rfl, rfl⟩ := List.cons_eq_cons.mp split
        rw [List.foldlM_cons] at run
        cases first : f s y with
        | error e' =>
          rw [first] at run
          cases run
        | ok u =>
          rw [first] at run
          exact ih.mpr ⟨before, x, after, t, rfl, run, fails⟩

/-- The text is JSON up to an integer that stands where a value may come and is too long to be
read. -/
def HasLongInteger (text : Text) : Prop :=
  text.head? ≠ some byteOrderMark ∧
    ∃ before t after state negative digits, tokens text = before ++ t :: after ∧
      before.foldlM step (.value []) = .ok state ∧ state.WantsValue ∧
      t.token = .integer negative digits ∧ Numeral.maxDigits < digits.length

theorem finish_ne_numeral (length : Nat) (state : State) (e : Text.Numeral.Error) :
    finish length state ≠ .error (.numeral e) := by
  cases state with
  | complete v outer => cases outer <;> simp [finish]
  | _ => simp [finish]

theorem decode_eq_numeral_iff {text : Text} {e : Text.Numeral.Error} :
    decode text = .error (.numeral e) ↔
      text.head? ≠ some byteOrderMark ∧
        (tokens text).foldlM step (.value []) = .error (.numeral e) := by
  rw [decode]
  split
  · simp_all
  · split <;> simp_all [finish_ne_numeral]

/-- A text is refused for the length of an integer when it is JSON up to one that is too long. -/
theorem exists_decode_eq_numeral_iff {text : Text} :
    (∃ e, decode text = .error (.numeral e)) ↔ HasLongInteger text := by
  simp only [decode_eq_numeral_iff, foldlM_eq_error_iff, step_eq_numeral_iff,
    Text.Numeral.readDigits_eq_error_iff]
  constructor
  · intro h
    obtain ⟨e, mark, before, t, after, state, split, run, wants, token⟩ := h
    obtain ⟨negative, digits, token, long, -⟩ := token
    exact ⟨mark, before, t, after, state, negative, digits, split, run, wants, token, long⟩
  · intro h
    obtain ⟨mark, before, t, after, state, negative, digits, split, run, wants, token, long⟩ := h
    exact ⟨_, mark, before, t, after, state, split, run, wants, negative, digits, token, long, rfl⟩

/-! ## Runs of digits -/

/-- Behind the last character of a token nothing is left of it. -/
theorem tokensFrom_length (pos : Nat) (s : Text) : tokensFrom s.length pos s = [] := by
  induction s generalizing pos with
  | nil => rfl
  | cons c cs ih => exact ih (pos + 1)

theorem takeWhile_digits {s : Text} (h : ∀ c ∈ s, c.isDigit = true) :
    s.takeWhile Char.isDigit = s := by
  rw [← List.append_nil s, List.takeWhile_append_of_pos h]
  rfl

theorem lexeme?_digits {s : Text} (h : ∀ c ∈ s, c.isDigit = true) (more : s ≠ [])
    (lead : s.head? ≠ some '0') : lexeme? s = some ⟨[], s, [], []⟩ := by
  have sign : (s.take 1).filter (· = '-') = [] := by
    rw [List.filter_eq_nil_iff]
    intro c hc
    have digit := h c (List.mem_of_mem_take hc)
    rw [decide_eq_true_eq]
    rintro rfl
    cases digit
  have fraction : fractionOf [] = [] := rfl
  have exponent : exponentOf [] = [] := rfl
  unfold lexeme?
  simp only [sign, List.length_nil, List.drop_zero, takeWhile_digits h, if_neg lead, if_neg more,
    List.drop_length, fraction, Nat.add_zero, exponent]

/-- No token but a numeral begins with a digit. -/
theorem tokenAt_digit {c : Char} {cs : Text} {x : Lexeme} (h : c.isDigit = true)
    (numeral : lexeme? (c :: cs) = some x) (pos : Nat) :
    tokenAt pos c cs = (x.token, x.length - 1) := by
  have noMark : punctuation.lookup c = none := by
    rw [List.lookup_eq_none_iff]
    intro p hp
    have marks : ∀ p ∈ punctuation, p.1.isDigit = false := by decide
    have mark := marks p hp
    rw [bne_iff_ne]
    rintro rfl
    rw [h] at mark
    cases mark
  have noQuote : c ≠ '"' := by
    rintro rfl
    cases h
  have noWord : (words.find? fun w => w.1.isPrefixOf (c :: cs)) = none := by
    rw [List.find?_eq_none]
    intro w hw begins
    have letters : ∀ w ∈ words, w.1 ≠ [] ∧ w.1.head?.any Char.isDigit = false := by decide
    obtain ⟨named, letter⟩ := letters w hw
    cases name : w.1 with
    | nil => exact named name
    | cons d ds =>
      rw [name, List.isPrefixOf_cons_cons, Bool.and_eq_true, beq_iff_eq] at begins
      rw [name, List.head?_cons, Option.any_some, begins.1, h] at letter
      cases letter
  unfold tokenAt
  simp only [noMark, if_neg noQuote, noWord, numeral]

/-- A run of digits is one token. -/
theorem tokens_digits {s : Text} (h : ∀ c ∈ s, c.isDigit = true) (more : s ≠ [])
    (lead : s.head? ≠ some '0') : tokens s = [⟨.integer false s, 0⟩] := by
  have numeral := lexeme?_digits h more lead
  cases s with
  | nil => exact absurd rfl more
  | cons c cs =>
    have digit := h c List.mem_cons_self
    have noSpace : ¬ isSpace c = true := by
      intro space
      simp only [isSpace, Bool.or_eq_true, decide_eq_true_eq] at space
      rcases space with ((rfl | rfl) | rfl) | rfl <;> cases digit
    have whole : (Lexeme.mk [] (c :: cs) [] []).length - 1 = cs.length := by
      simp [Lexeme.length]
    rw [tokens, tokensFrom, if_neg noSpace, tokenAt_digit digit numeral, whole]
    dsimp only
    rw [tokensFrom_length]
    rfl

/-- A run of digits is an integer, and refused when it is too long. -/
theorem hasLongInteger_digits {s : Text} (h : ∀ c ∈ s, c.isDigit = true)
    (lead : s.head? ≠ some '0') (long : Numeral.maxDigits < s.length) : HasLongInteger s := by
  have more : s ≠ [] := by
    rintro rfl
    cases long
  refine ⟨?_, [], ⟨.integer false s, 0⟩, [], .value [], false, s, tokens_digits h more lead, rfl,
    trivial, rfl, long⟩
  intro mark
  have digit := h _ (List.mem_of_head? mark)
  cases digit

end LintReport.Json
