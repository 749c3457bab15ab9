/-
  LintReport.Proofs.Number.Binary64 — how great a double-precision number can be.

  A decimal numeral of a few characters can name a number of any size. But what is read is a
  double-precision number: its mantissa has 53 bits and its exponent is at most 971, or it is
  infinite and has no integer part.

  Proved:
  - `scale_exponentOf_lt`: at the exponent taken for a fraction, the mantissa keeps to its bits.
  - `natAbs_truncate?_ofDecimal_le`: the integer part of a number that is read is at most two to the
    power of 1024.
-/

import LintReport.Number.Binary64
import Mathlib.Algebra.Group.Nat.Defs

namespace LintReport.Number.Binary64

/-! ## The mantissa -/

/-- A fraction is less than two to the difference of the logarithms, and one more. -/
theorem mul_two_pow_lt {num den a b : Nat} (hden : 0 < den)
    (h : num.log2 + 1 + a ≤ den.log2 + b) : num * 2 ^ a < den * 2 ^ b := by
  have top : num < 2 ^ (num.log2 + 1) := Nat.lt_log2_self
  have bottom : 2 ^ den.log2 ≤ den := Nat.log2_self_le (Nat.ne_of_gt hden)
  calc num * 2 ^ a < 2 ^ (num.log2 + 1) * 2 ^ a :=
        Nat.mul_lt_mul_of_pos_right top (Nat.two_pow_pos a)
    _ = 2 ^ (num.log2 + 1 + a) := (Nat.pow_add 2 _ a).symm
    _ ≤ 2 ^ (den.log2 + b) := Nat.pow_le_pow_right (by decide) h
    _ = 2 ^ den.log2 * 2 ^ b := Nat.pow_add 2 _ b
    _ ≤ den * 2 ^ b := Nat.mul_le_mul_right _ bottom

theorem two_mul_fullMantissa : 2 * fullMantissa = 2 ^ mantissaBits := by decide

theorem scale_two (n d : Nat) (e : Int) :
    scale 2 n d (-e) = (n * 2 ^ (-e).toNat, d * 2 ^ e.toNat) := by
  rw [scale, Int.neg_neg]
  rfl

/-- What a fraction is less than at an exponent, it is less than twice at the exponent before. -/
theorem fraction_lt_of_succ {num den m : Nat} {e : Int}
    (h : num * 2 ^ (-(e + 1)).toNat < den * 2 ^ (e + 1).toNat * m) :
    num * 2 ^ (-e).toNat < den * 2 ^ e.toNat * (2 * m) := by
  by_cases negative : e < 0
  · have up : (-e).toNat = (-(e + 1)).toNat + 1 := by omega
    have down : e.toNat = (e + 1).toNat := by omega
    rw [up, down, Nat.pow_succ, ← Nat.mul_assoc, Nat.mul_left_comm, Nat.mul_comm _ 2]
    exact Nat.mul_lt_mul_of_pos_left h (by decide)
  · have up : (e + 1).toNat = e.toNat + 1 := by omega
    have down : (-(e + 1)).toNat = (-e).toNat := by omega
    rw [up, down, Nat.pow_succ, ← Nat.mul_assoc, Nat.mul_assoc _ 2 m] at h
    exact h

/-- At the exponent taken for it, a fraction is less than the first mantissa with a bit too many. -/
theorem scale_exponentOf_lt (num : Nat) {den : Nat} (hden : 0 < den) :
    (scale 2 num den (-exponentOf num den)).1 <
      (scale 2 num den (-exponentOf num den)).2 * 2 ^ mantissaBits := by
  -- The logarithms settle the exponent up to one. The lesser one is taken only if at the greater
  -- the mantissa lacks a bit, so doubling it does not take it too far.
  let least : Int := (num.log2 : Int) - den.log2 - mantissaBits
  have least_eq : least = (num.log2 : Int) - den.log2 - mantissaBits := rfl
  have chosen : exponentOf num den =
      max leastExponent
        (if den * 2 ^ (least + 1).toNat * fullMantissa ≤ num * 2 ^ (-(least + 1)).toNat
          then least + 1 else least) := by
    rw [exponentOf]
    simp only [scale_two]
    rfl
  rw [scale_two]
  show num * 2 ^ (-exponentOf num den).toNat <
    den * 2 ^ (exponentOf num den).toNat * 2 ^ mantissaBits
  by_cases greater : least + 1 ≤ exponentOf num den
  · rw [Nat.mul_assoc, ← Nat.pow_add]
    apply mul_two_pow_lt hden
    omega
  · split at chosen
    · omega
    · rename_i fits
      have lesser : exponentOf num den = least := by omega
      rw [lesser, ← two_mul_fullMantissa]
      exact fraction_lt_of_succ (Nat.lt_of_not_le fits)

theorem roundDiv_le {n d b : Nat} (h : n < d * b) : roundDiv n d ≤ b := by
  have quotient : n / d < b := Nat.div_lt_of_lt_mul h
  unfold roundDiv
  dsimp only
  split <;> omega

theorem fullMantissa_le : fullMantissa ≤ 2 ^ mantissaBits := by
  rw [← two_mul_fullMantissa]
  omega

/-- Halving a mantissa that is too long keeps it within its bits. -/
theorem ofRounded_bounds {negative sign : Bool} {r m : Nat} {k e : Int}
    (hr : r ≤ 2 ^ mantissaBits) (h : ofRounded negative r k = .finite sign m e) :
    m ≤ 2 ^ mantissaBits ∧ e ≤ greatestExponent := by
  unfold ofRounded at h
  by_cases long : r = 2 * fullMantissa
  · rw [if_pos long] at h
    dsimp only at h
    split at h
    · cases h
    · rename_i low
      cases h
      exact ⟨fullMantissa_le, Int.not_lt.mp low⟩
  · rw [if_neg long] at h
    dsimp only at h
    split at h
    · cases h
    · rename_i low
      cases h
      exact ⟨hr, Int.not_lt.mp low⟩

theorem ofFraction_eq (negative : Bool) (num den : Nat) :
    ofFraction negative num den =
      ofRounded negative (roundDiv (scale 2 num den (-exponentOf num den)).1
        (scale 2 num den (-exponentOf num den)).2) (exponentOf num den) := rfl

/-- A finite number that is nearest to a fraction keeps to the bits of the mantissa and to the
greatest exponent. -/
theorem ofFraction_bounds {negative sign : Bool} {num den m : Nat} {e : Int} (hden : 0 < den)
    (h : ofFraction negative num den = .finite sign m e) :
    m ≤ 2 ^ mantissaBits ∧ e ≤ greatestExponent := by
  rw [ofFraction_eq] at h
  exact ofRounded_bounds (roundDiv_le (scale_exponentOf_lt num hden)) h

/-! ## The integer part -/

/-- The exponent of the first power of two that is too great for a double-precision number. -/
def bits : Nat := 1024

theorem natAbs_truncate?_le {sign : Bool} {m : Nat} {e n : Int}
    (hm : m ≤ 2 ^ mantissaBits) (he : e ≤ greatestExponent)
    (h : (Binary64.finite sign m e).truncate? = some n) : n.natAbs ≤ 2 ^ bits := by
  have part : n.natAbs = m * 2 ^ e.toNat / (1 * 2 ^ (-e).toNat) := by
    cases h
    cases sign
    · rfl
    · exact Int.natAbs_neg _
  have exponent : mantissaBits + e.toNat ≤ bits := by
    simp only [mantissaBits, bits]
    simp only [greatestExponent] at he
    omega
  rw [part]
  calc m * 2 ^ e.toNat / (1 * 2 ^ (-e).toNat) ≤ m * 2 ^ e.toNat := Nat.div_le_self _ _
    _ ≤ 2 ^ mantissaBits * 2 ^ e.toNat := Nat.mul_le_mul_right _ hm
    _ = 2 ^ (mantissaBits + e.toNat) := (Nat.pow_add 2 _ _).symm
    _ ≤ 2 ^ bits := Nat.pow_le_pow_right (by decide) exponent

/-- However great a number a numeral names, the integer part that is read is not. -/
theorem natAbs_truncate?_ofDecimal_le {x : Decimal} {n : Int}
    (h : (ofDecimal x).truncate? = some n) : n.natAbs ≤ 2 ^ bits := by
  have zero : (Binary64.finite x.negative 0 0).truncate? = some n → n.natAbs ≤ 2 ^ bits :=
    natAbs_truncate?_le (Nat.zero_le _) (by decide)
  unfold ofDecimal at h
  dsimp only at h
  split at h
  · exact zero h
  · split at h
    · cases h
    · split at h
      · exact zero h
      · cases near : ofFraction x.negative (scale 10 x.digits 1 x.exponent).1
          (scale 10 x.digits 1 x.exponent).2 with
        | nan => rw [near] at h; cases h
        | infinity sign => rw [near] at h; cases h
        | finite sign m e =>
          rw [near] at h
          have den : 0 < (scale 10 x.digits 1 x.exponent).2 :=
            Nat.mul_pos Nat.one_pos (Nat.pow_pos (by decide))
          obtain ⟨hm, he⟩ := ofFraction_bounds den near
          exact natAbs_truncate?_le hm he h

end LintReport.Number.Binary64
