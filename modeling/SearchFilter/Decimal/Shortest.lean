import SearchFilter.Decimal.Binary64

/-!
# Shortest decimals

The decimal with the fewest digits that reads back as a given binary64 number. The reals that
round to the number form an interval, with its ends if and only if the significand is even. The
grids of one, two and up to seventeen significant digits are tried in turn, and on each of them
only the two neighbours of the number can be nearest to it.
-/

namespace SearchFilter.Decimal

/-- The decimal `coefficient * 10 ^ exponent`. -/
structure Digits where
  coefficient : Nat
  exponent : Int
  deriving DecidableEq, Repr

/-- Which of two equally near decimals is taken. -/
inductive Tie where
  | awayFromZero
  | toEven
  deriving DecidableEq, Repr

/-- The reals that round to one number, in units of `1 / 2 ^ halvings`. -/
structure Interval where
  low : Nat
  value : Nat
  high : Nat
  halvings : Nat
  /-- The two ends round to the number as well. -/
  isClosed : Bool
  deriving DecidableEq, Repr

/-- The interval of a finite non-zero number. The number is four quarters of its significand, and
each end is half way to a neighbour. -/
def Interval.ofBinary64 (x : Binary64) : Interval :=
  let shift := x.exponent - 2
  let scale := Nat.pow 2 shift.toNat
  let quarters := 4 * x.significand
  { low := (quarters - if x.isNarrowBelow then 1 else 2) * scale
    value := quarters * scale
    high := (quarters + 2) * scale
    halvings := (-shift).toNat
    isClosed := x.significand % 2 == 0 }

namespace Interval

/-- The decimal `coefficient * 10 ^ exponent` lies in the interval. -/
def contains (interval : Interval) (coefficient : Nat) (exponent : Int) : Bool :=
  let point := coefficient * Nat.pow 10 exponent.toNat * Nat.pow 2 interval.halvings
  let low := interval.low * Nat.pow 10 (-exponent).toNat
  let high := interval.high * Nat.pow 10 (-exponent).toNat
  if interval.isClosed then low ≤ point && point ≤ high else low < point && point < high

/-- How often the positive fraction `num / den` can be multiplied by ten and stay below one. -/
def leadingZeros (num den : Nat) : Nat :=
  if h : 0 < num ∧ num * 10 < den then leadingZeros (num * 10) den + 1 else 0
termination_by den - num
decreasing_by omega

/-- The least `k` with `value < 10 ^ k`. -/
def decimalOrder (interval : Interval) : Int :=
  let den := Nat.pow 2 interval.halvings
  if den ≤ interval.value then (Nat.toDigits 10 (interval.value / den)).length
  else -(leadingZeros interval.value den)

/-- The largest multiple of `10 ^ exponent` that is not above the number, in these units. -/
def floorOnGrid (interval : Interval) (exponent : Int) : Nat :=
  interval.value * Nat.pow 10 (-exponent).toNat /
    (Nat.pow 2 interval.halvings * Nat.pow 10 exponent.toNat)

/-- The upper neighbour of the number on a grid is to be taken before the lower one. -/
def prefersUpper (tie : Tie) (interval : Interval) (lower : Nat) (exponent : Int) : Bool :=
  let twice := 2 * interval.value * Nat.pow 10 (-exponent).toNat
  let middle := (2 * lower + 1) * Nat.pow 10 exponent.toNat * Nat.pow 2 interval.halvings
  match compare twice middle with
  | .lt => false
  | .gt => true
  | .eq => match tie with
    | .awayFromZero => true
    | .toEven => lower % 2 == 1

/-- The multiple of `10 ^ exponent` in the interval that is nearest to the number. -/
def onGrid? (tie : Tie) (interval : Interval) (exponent : Int) : Option Digits :=
  let lower := interval.floorOnGrid exponent
  match interval.contains lower exponent, interval.contains (lower + 1) exponent with
  | false, false => none
  | true, false => some ⟨lower, exponent⟩
  | false, true => some ⟨lower + 1, exponent⟩
  | true, true =>
    some ⟨if interval.prefersUpper tie lower exponent then lower + 1 else lower, exponent⟩

/-- All digits of the number. -/
def exact (interval : Interval) : Digits :=
  ⟨interval.value * Nat.pow 5 interval.halvings, -interval.halvings⟩

end Interval

/-- Moves the trailing zeros of the coefficient into the exponent. -/
def Digits.normalize (d : Digits) : Digits :=
  if h : d.coefficient ≠ 0 ∧ d.coefficient % 10 = 0 then
    normalize ⟨d.coefficient / 10, d.exponent + 1⟩
  else d
termination_by d.coefficient
decreasing_by omega

/-- The fewest digits that read back as the finite non-zero number `x`, without its sign. Seventeen
digits always read back. -/
def shortest (tie : Tie) (x : Binary64) : Digits :=
  let interval := Interval.ofBinary64 x
  let order := interval.decimalOrder
  let found := (List.range 17).findSome? fun (n : Nat) =>
    interval.onGrid? tie (order - (n + 1))
  (found.getD interval.exact).normalize

end SearchFilter.Decimal
