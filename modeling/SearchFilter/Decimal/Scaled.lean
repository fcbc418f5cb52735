import SearchFilter.Decimal.Binary64

/-!
# Scaled decimals

The binary64 number for a short decimal: a significand of at most 64 bits is rounded once, and then
multiplied or divided by a power of ten, with one more rounding. Digits of the text for which the
significand has no room count as zeros.
-/

namespace SearchFilter

namespace Binary64

def times (x y : Binary64) : Binary64 :=
  nearest false (x.magnitude.1 * y.magnitude.1) (x.magnitude.2 * y.magnitude.2)

def dividedBy (x y : Binary64) : Binary64 :=
  nearest false (x.magnitude.1 * y.magnitude.2) (x.magnitude.2 * y.magnitude.1)

def powerOfTen (n : Nat) : Binary64 :=
  nearest false (Nat.pow 10 n) 1

end Binary64

namespace Decimal

/-- The greatest power of ten by which a number is scaled in one step. -/
def maxPower : Nat := 308

/-- The number for `x * 10 ^ n`, unless it is too large. -/
def scaleUp? (x : Binary64) (n : Nat) : Option Binary64 :=
  if x.isZero then some x
  else if maxPower < n then none
  else
    let product := x.times (.powerOfTen n)
    if product.isFinite then some product else none

/-- The number for `x / 10 ^ n`, found in as many steps as it takes. -/
def scaleDown (x : Binary64) (n : Nat) : Binary64 :=
  if x.isZero then x
  else if n ≤ maxPower then x.dividedBy (.powerOfTen n)
  else scaleDown (x.dividedBy (.powerOfTen maxPower)) (n - maxPower)
termination_by n
decreasing_by simp [maxPower] at *; omega

/-- The number for `significand * 10 ^ exponent`, unless it is too large. -/
def scale? (significand : Nat) (exponent : Int) : Option Binary64 :=
  let x := Binary64.nearest false significand 1
  if 0 ≤ exponent then scaleUp? x exponent.toNat else some (scaleDown x (-exponent).toNat)

def digitValue (c : Char) : Nat := c.toNat - '0'.toNat

/-- The natural number that a run of digits is written for. -/
def ofDigits (digits : List Char) : Nat :=
  digits.foldl (fun n c => 10 * n + digitValue c) 0

/-- Appends digits to a significand for as long as it stays below `2 ^ 64`. The result comes with
the number of digits that were taken. -/
def appendDigits (significand : Nat) : List Char → Nat × Nat
  | [] => (significand, 0)
  | c :: rest =>
    let next := 10 * significand + digitValue c
    if next < UInt64.size then
      let (result, taken) := appendDigits next rest
      (result, taken + 1)
    else (significand, 0)

end Decimal

end SearchFilter
