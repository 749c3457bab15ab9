/-
  LintReport.Number.Binary64 — double-precision numbers, exactly.

  A finite number is `mantissa · 2 ^ exponent` with a sign of its own, so that zero has two. A
  decimal numeral is read as the nearest such number with a mantissa of 53 bits, a half going to
  the even one; beyond the greatest it is infinite.
-/

namespace LintReport.Number

inductive Binary64 where
  | nan
  | infinity (negative : Bool)
  | finite (negative : Bool) (mantissa : Nat) (exponent : Int)
  deriving DecidableEq, Repr

/-- A decimal numeral: `digits · 10 ^ exponent`. -/
structure Decimal where
  negative : Bool
  digits : Nat
  exponent : Int
  deriving DecidableEq, Repr

namespace Binary64

def mantissaBits : Nat := 53

/-- The least mantissa with all its bits. -/
def fullMantissa : Nat := Nat.pow 2 (mantissaBits - 1)

def leastExponent : Int := -1074

def greatestExponent : Int := 971

/-- The quotient rounded to the nearest natural number, a half to the even one. -/
def roundDiv (num den : Nat) : Nat :=
  let q := num / den
  let twice := 2 * (num % den)
  if twice < den ∨ (twice = den ∧ q % 2 = 0) then q else q + 1

def scale (base n d : Nat) (e : Int) : Nat × Nat :=
  (n * base.pow e.toNat, d * base.pow (-e).toNat)

/-- The greatest exponent at which the mantissa of `num / den` has all its bits. -/
def exponentOf (num den : Nat) : Int :=
  let e : Int := (num.log2 : Int) - den.log2 - mantissaBits
  let (n, d) := scale 2 num den (-(e + 1))
  max leastExponent (if d * fullMantissa ≤ n then e + 1 else e)

/-- The number with a rounded mantissa. One that has one bit too many by rounding is halved. -/
def ofRounded (negative : Bool) (m : Nat) (e : Int) : Binary64 :=
  let (m, e) := if m = 2 * fullMantissa then (fullMantissa, e + 1) else (m, e)
  if greatestExponent < e then .infinity negative else .finite negative m e

def ofFraction (negative : Bool) (num den : Nat) : Binary64 :=
  let e := exponentOf num den
  let (n, d) := scale 2 num den (-e)
  ofRounded negative (roundDiv n d) e

/-- The number nearest to a decimal numeral. Far outside the range of exponents there is no need to
look at the digits. -/
def ofDecimal (x : Decimal) : Binary64 :=
  let zero := Binary64.finite x.negative 0 0
  if x.digits = 0 then zero
  else
    let magnitude : Int := (Nat.toDigits 10 x.digits).length + x.exponent
    if magnitude > 310 then .infinity x.negative
    else if magnitude < -330 then zero
    else
      let (num, den) := scale 10 x.digits 1 x.exponent
      ofFraction x.negative num den

/-- The integer part, the fraction dropped. Only finite numbers have one. -/
def truncate? : Binary64 → Option Int
  | .nan | .infinity _ => none
  | .finite negative m e =>
    let (num, den) := scale 2 m 1 e
    let n : Int := (num / den : Nat)
    some (if negative then -n else n)

end Binary64

end LintReport.Number
