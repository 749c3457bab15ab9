/-
  LintReport.Proofs.Text.Numeral — the integers that are short enough to be written.

  The same limit holds for reading and writing, so what has been read can be written again. A sum
  of such integers need not be among them.

  Proved:
  - `short_iff`: an integer is short when it lies below ten to the power of the limit.
  - `short_of_le`: a number between zero and a short one is short.
  - `short_of_readDigits`: what has been read from digits is short.
  - `read_eq_ok_iff` / `read_eq_error_iff`: what is read from a text, and what it is refused with.
-/

import LintReport.Text.Numeral
import Mathlib.Algebra.Group.Int.Defs
import Mathlib.Algebra.Group.Nat.Defs
import Mathlib.Data.List.Basic
import Mathlib.Data.List.TakeWhile
import Mathlib.Data.Nat.Digits.Defs

namespace LintReport.Text.Numeral

def Short (n : Int) : Prop := (ofNat n.natAbs).length ≤ maxDigits

instance : DecidablePred Short := fun _ => inferInstanceAs (Decidable (_ ≤ _))

theorem write_eq (n : Int) :
    write n = if Short n then .ok (ofInt n) else .error .tooLongToWrite := rfl

theorem short_iff (n : Int) : Short n ↔ n.natAbs < 10 ^ maxDigits := by
  unfold Short ofNat
  exact Nat.length_toDigits_le_iff (by decide) (by decide)

theorem short_of_le {m n : Int} (hm : 0 ≤ m) (h : m ≤ n) (hn : Short n) : Short m := by
  rw [short_iff] at hn ⊢
  exact Nat.lt_of_le_of_lt (by omega) hn

/-- A number of few enough bits is short, since ten is greater than two. -/
theorem short_of_natAbs_le {n : Int} {k : Nat} (h : n.natAbs ≤ 2 ^ k) (hk : k < maxDigits) :
    Short n := by
  rw [short_iff]
  calc n.natAbs ≤ 2 ^ k := h
    _ ≤ 10 ^ k := Nat.pow_le_pow_left (by decide) k
    _ < 10 ^ maxDigits := Nat.pow_lt_pow_right (by decide) hk

theorem short_neg {n : Int} : Short (-n) ↔ Short n := by
  rw [short_iff, short_iff, Int.natAbs_neg]

theorem short_iff_lt {n : Int} (h : 0 ≤ n) : Short n ↔ n < 10 ^ maxDigits := by
  rw [short_iff]
  have cast : ((10 ^ maxDigits : Nat) : Int) = 10 ^ maxDigits := Int.natCast_pow 10 maxDigits
  rw [← cast]
  omega

/-! ## Reading -/

theorem digit_le {c : Char} (h : c.isDigit = true) : c.toNat - '0'.toNat ≤ 9 := by
  simp only [Char.isDigit, Bool.and_eq_true, decide_eq_true_eq] at h
  have high : c.toNat ≤ 57 := h.2
  show c.toNat - 48 ≤ 9
  omega

/-- Each digit behind a number takes it at most to the next multiple of ten. -/
theorem foldl_digits_lt {digits : Text} (h : ∀ c ∈ digits, c.isDigit = true) (n : Nat) :
    digits.foldl (fun n c => 10 * n + (c.toNat - '0'.toNat)) n < (n + 1) * 10 ^ digits.length := by
  induction digits generalizing n with
  | nil => simp
  | cons c cs ih =>
    have digit := digit_le (h c List.mem_cons_self)
    have rest := ih (fun d hd => h d (List.mem_cons_of_mem c hd)) (10 * n + (c.toNat - '0'.toNat))
    rw [List.foldl_cons, List.length_cons]
    calc _ < (10 * n + (c.toNat - '0'.toNat) + 1) * 10 ^ cs.length := rest
      _ ≤ (10 * (n + 1)) * 10 ^ cs.length := Nat.mul_le_mul_right _ (by omega)
      _ = (n + 1) * 10 ^ (cs.length + 1) := by rw [Nat.pow_succ]; ac_rfl

theorem ofDigits_lt {digits : Text} (h : ∀ c ∈ digits, c.isDigit = true) :
    ofDigits digits < 10 ^ digits.length := by
  have := foldl_digits_lt h 0
  rwa [Nat.zero_add, Nat.one_mul] at this

/-- What has been read from digits can be written again. -/
theorem short_of_readDigits {digits : Text} (h : ∀ c ∈ digits, c.isDigit = true) {n : Nat}
    (read : readDigits digits = .ok n) : Short n := by
  unfold readDigits at read
  split at read
  · rename_i length
    cases read
    rw [short_iff]
    have limit : 10 ^ digits.length ≤ 10 ^ maxDigits := Nat.pow_le_pow_right (by decide) length
    exact Nat.lt_of_lt_of_le (ofDigits_lt h) limit
  · cases read

/-! ## Digits of any script -/

/-- The text is made of decimal digits, the first one worth most, and they stand for the number. -/
def Denotes (text : Text) (n : Nat) : Prop :=
  ∃ digits : List Nat, text.map digitValue? = digits.map some ∧ Nat.ofDigits 10 digits.reverse = n

def valueOf (text : Text) : Nat := text.foldl (fun n c => 10 * n + (digitValue? c).getD 0) 0

theorem map_digitValue?_of_decimal {text : Text} (h : ∀ c ∈ text, isDecimal c = true) :
    text.map digitValue? = (text.map fun c => (digitValue? c).getD 0).map some := by
  rw [List.map_map]
  refine List.map_congr_left fun c hc => ?_
  obtain ⟨d, hd⟩ := Option.isSome_iff_exists.mp (h c hc)
  rw [Function.comp_apply, hd]
  rfl

theorem ofDigits_map_digitValue? (text : Text) :
    Nat.ofDigits 10 (text.map fun c => (digitValue? c).getD 0).reverse = valueOf text := by
  rw [Nat.ofDigits_eq_foldr, List.foldr_reverse, List.foldl_map]
  simp only [valueOf, Nat.cast_id, Nat.add_comm]

/-- Digits stand for one number, the one that is read off them. -/
theorem denotes_iff {text : Text} {n : Nat} :
    Denotes text n ↔ (∀ c ∈ text, isDecimal c = true) ∧ valueOf text = n := by
  constructor
  · rintro ⟨digits, values, rfl⟩
    have decimal : ∀ c ∈ text, isDecimal c = true := by
      intro c hc
      have value : digitValue? c ∈ digits.map some := values ▸ List.mem_map_of_mem hc
      obtain ⟨d, -, hd⟩ := List.mem_map.mp value
      exact Option.isSome_iff_exists.mpr ⟨d, hd.symm⟩
    have same : (text.map fun c => (digitValue? c).getD 0) = digits :=
      List.map_injective_iff.mpr (Option.some_injective Nat)
        ((map_digitValue?_of_decimal decimal).symm.trans values)
    exact ⟨decimal, by rw [← same, ofDigits_map_digitValue?]⟩
  · rintro ⟨decimal, rfl⟩
    exact ⟨_, map_digitValue?_of_decimal decimal, ofDigits_map_digitValue? text⟩

/-- A text is read if it is a run of decimal digits within the limit, as the number they stand
for. -/
theorem read_eq_ok_iff {text : Text} {n : Nat} :
    read text = .ok n ↔ Denotes text n ∧ text.length ≤ maxDigits := by
  rw [denotes_iff]
  by_cases readable : (∀ c ∈ text, isDecimal c = true) ∧ text.length ≤ maxDigits
  · obtain ⟨decimal, short⟩ := readable
    have run := List.takeWhile_eq_self_iff.mpr decimal
    have value : read text = .ok (valueOf text) := by
      simp only [read, run, Nat.lt_irrefl, if_false]
      rw [if_neg (by omega)]
      rfl
    rw [value, Except.ok.injEq]
    exact ⟨fun h => ⟨⟨decimal, h⟩, short⟩, fun h => h.1.2⟩
  · obtain ⟨e, refused⟩ := exists_read_eq_error_iff.mpr readable
    rw [refused]
    exact ⟨nofun, fun h => absurd ⟨h.1.1, h.2⟩ readable⟩

/-- Any other text is refused for its length, as far as it is a run of digits, or else for what is
no decimal digit in it. -/
theorem read_eq_error_iff {text : Text} {e : Error} :
    read text = .error e ↔
      let run := text.takeWhile isDecimal
      maxDigits < run.length ∧ e = .tooLongToRead run.length ∨
        run.length ≤ maxDigits ∧ (∃ c ∈ text, isDecimal c = false) ∧ e = .notDecimal text := by
  let run := text.takeWhile isDecimal
  change _ ↔ maxDigits < run.length ∧ _ ∨ run.length ≤ maxDigits ∧ _
  have cut : run.length < text.length ↔ ∃ c ∈ text, isDecimal c = false := by
    have whole : run.length = text.length ↔ ∀ c ∈ text, isDecimal c = true :=
      ⟨fun h => List.takeWhile_eq_self_iff.mp ((List.takeWhile_prefix _).eq_of_length h),
        fun h => congrArg List.length (List.takeWhile_eq_self_iff.mpr h)⟩
    have bound : run.length ≤ text.length := (List.takeWhile_prefix isDecimal).length_le
    have other : (∃ c ∈ text, isDecimal c = false) ↔ ¬ run.length = text.length := by
      rw [whole]
      simp
    rw [other]
    omega
  have result : read text = if maxDigits < run.length then .error (.tooLongToRead run.length)
      else if run.length < text.length then .error (.notDecimal text)
      else .ok (valueOf run) := rfl
  rw [result]
  by_cases long : maxDigits < run.length
  · rw [if_pos long]
    constructor
    · intro h
      cases h
      exact .inl ⟨long, rfl⟩
    · rintro (⟨-, rfl⟩ | ⟨short, -⟩)
      · rfl
      · exact absurd short (by omega)
  · rw [if_neg long]
    by_cases other : run.length < text.length
    · rw [if_pos other]
      constructor
      · intro h
        cases h
        exact .inr ⟨by omega, cut.mp other, rfl⟩
      · rintro (⟨far, -⟩ | ⟨-, -, rfl⟩)
        · exact absurd far long
        · rfl
    · rw [if_neg other]
      refine ⟨nofun, ?_⟩
      rintro (⟨far, -⟩ | ⟨-, found, -⟩)
      · exact absurd far long
      · exact absurd (cut.mpr found) other

end LintReport.Text.Numeral
