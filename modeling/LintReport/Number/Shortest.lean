/-
  LintReport.Number.Shortest — a double-precision number in the fewest decimal digits that read
  back as it.

  The decimals that read back as a number fill the interval between the halfway points to its
  neighbours, ends included when the mantissa is even. With a given count of digits the decimals
  form a grid, and if one of the grid lies in the interval, one of the two that enclose the number
  does. So the first count is taken with which one of the two lies in the interval, and of two the
  nearer one.

  A number is written with its point in place when its leading digit stands at most four places
  behind the point or sixteen before it, and with an exponent of at least two digits otherwise.
-/

import LintReport.Number.Binary64
import LintReport.Text.Numeral

namespace LintReport.Number

open Text (Numeral.ofNat Numeral.ofInt)

namespace Shortest

/-- The numerators of the number and of the ends of its interval over `den`; whether the ends
belong to it. -/
structure Interval where
  low : Nat
  value : Nat
  high : Nat
  den : Nat
  closed : Bool

/-- Below the least mantissa with all bits the neighbours stand twice as close. -/
def Interval.ofBinary (m : Nat) (e : Int) : Interval :=
  let below := if m = Binary64.fullMantissa ∧ Binary64.leastExponent < e then 1 else 2
  let (unit, den) := Binary64.scale 2 1 1 (e - 2)
  ⟨(4 * m - below) * unit, 4 * m * unit, (4 * m + 2) * unit, den, m % 2 = 0⟩

def Interval.has (i : Interval) (n : Nat) : Bool :=
  if i.closed then i.low ≤ n && n ≤ i.high else i.low < n && n < i.high

/-- The number lies below ten to this power and not below the one before. -/
def Interval.magnitude (i : Interval) : Int :=
  if i.den ≤ i.value then (Nat.toDigits 10 (i.value / i.den)).length
  else 1 - (Nat.toDigits 10 ((i.den - 1) / i.value)).length

/-- The multiple of `10 ^ place` that reads back as the number, if there is one: its numerator. -/
def Interval.onGrid? (i : Interval) (place : Int) : Option Nat :=
  let (step, factor) := Binary64.scale 10 i.den 1 place
  let j : Interval := ⟨i.low * factor, i.value * factor, i.high * factor, i.den, i.closed⟩
  let below := j.value / step
  let above := below + 1
  match j.has (below * step), j.has (above * step) with
  | true, true =>
    let fromBelow := j.value - below * step
    let toAbove := above * step - j.value
    some (if fromBelow < toAbove ∨ (fromBelow = toAbove ∧ below % 2 = 0) then below else above)
  | true, false => some below
  | false, true => some above
  | false, false => none

/-- The shortest decimal that reads back, as an integer and the place of its last digit. Seventeen
digits always do. -/
def Interval.decimal (i : Interval) : Nat × Int :=
  let places := (List.range 17).map fun (n : Nat) => i.magnitude - (n + 1)
  (places.findSome? fun place => (i.onGrid? place).map (·, place)).getD (0, 0)

/-- The significant digits of a positive number, and how many of them stand before the point. -/
def digits (m : Nat) (e : Int) : List Char × Int :=
  let (n, place) := (Interval.ofBinary m e).decimal
  let all := Numeral.ofNat n
  (all.reverse.dropWhile (· = '0') |>.reverse, all.length + place)

end Shortest

namespace Binary64

/-- Digits with the point `before` of them in, or with an exponent where the point would be far. -/
def layout (ds : List Char) (before : Int) : List Char :=
  if -4 < before ∧ before ≤ 16 then
    if before ≤ 0 then "0.".toList ++ List.replicate (-before).toNat '0' ++ ds
    else
      let n := before.toNat
      ds.take n ++ List.replicate (n - ds.length) '0' ++ ['.'] ++
        (if ds.length ≤ n then ['0'] else ds.drop n)
  else
    let e := before - 1
    let size := Numeral.ofNat e.natAbs
    ds.take 1 ++ (if ds.length ≤ 1 then [] else '.' :: ds.drop 1)
      ++ ['e', if e < 0 then '-' else '+'] ++ (if size.length < 2 then '0' :: size else size)

def write : Binary64 → List Char
  | .nan => "nan".toList
  | .infinity negative => (if negative then ['-'] else []) ++ "inf".toList
  | .finite negative m e =>
    (if negative then ['-'] else []) ++
      (if m = 0 then "0.0".toList else
        let (ds, before) := Shortest.digits m e
        layout ds before)

end Binary64

end LintReport.Number
