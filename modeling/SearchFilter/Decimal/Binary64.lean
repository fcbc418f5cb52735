/-!
# Binary64 numbers

A number of the 64-bit binary interchange format, held as its bits. Its sign, significand and
exponent are read off by division, so that its value is an exact fraction of naturals. Equality as
a number is `==`, which takes the two zeros for one and NaN for nothing; `=` compares the bits.
-/

namespace SearchFilter

/-- A binary64 number, as its 64 bits. -/
structure Binary64 where
  bits : UInt64
  deriving DecidableEq, Repr

namespace Binary64

def exponentField (x : Binary64) : Nat :=
  x.bits.toNat / Nat.pow 2 52 % Nat.pow 2 11

def fractionField (x : Binary64) : Nat :=
  x.bits.toNat % Nat.pow 2 52

def isNegative (x : Binary64) : Bool :=
  Nat.pow 2 63 ≤ x.bits.toNat

def isFinite (x : Binary64) : Bool :=
  x.exponentField != 2047

def isNaN (x : Binary64) : Bool :=
  x.exponentField == 2047 && x.fractionField != 0

def isZero (x : Binary64) : Bool :=
  x.exponentField == 0 && x.fractionField == 0

def equal (x y : Binary64) : Bool :=
  !x.isNaN && !y.isNaN && (decide (x = y) || x.isZero && y.isZero)

instance : BEq Binary64 := ⟨equal⟩

/-- The magnitude of a finite number is `significand * 2 ^ exponent`. -/
def significand (x : Binary64) : Nat :=
  if x.exponentField = 0 then x.fractionField else Nat.pow 2 52 + x.fractionField

/-- The power of two that goes with `significand`. -/
def exponent (x : Binary64) : Int :=
  if x.exponentField = 0 then -1074 else x.exponentField - 1075

/-- The gap to the next number toward zero is half the gap to the next number away from it. -/
def isNarrowBelow (x : Binary64) : Bool :=
  x.fractionField == 0 && 1 < x.exponentField

/-- The magnitude of a finite number, as a numerator and a denominator. -/
def magnitude (x : Binary64) : Nat × Nat :=
  (x.significand * Nat.pow 2 x.exponent.toNat, Nat.pow 2 (-x.exponent).toNat)

/-- The integer `t` with `2 ^ t ≤ num / den < 2 ^ (t + 1)`, for a positive fraction. -/
def binaryOrder (num den : Nat) : Int :=
  let t : Int := (num.log2 : Int) - den.log2
  if num * Nat.pow 2 (-t).toNat < den * Nat.pow 2 t.toNat then t - 1 else t

/-- The natural nearest to `num / den`, and the even one of two that are equally near. -/
def divideToEven (num den : Nat) : Nat :=
  let quotient := num / den
  let twice := 2 * (num % den)
  if den < twice || (twice == den && quotient % 2 == 1) then quotient + 1 else quotient

/-- The bits of the non-negative number nearest to `num / den`. A carry out of the significand
moves into the exponent by itself, and all that is too large is infinity. -/
def nearestBits (num den : Nat) : Nat :=
  if num = 0 then 0 else
  let exponent := max (binaryOrder num den - 52) (-1074)
  let significand :=
    divideToEven (num * Nat.pow 2 (-exponent).toNat) (den * Nat.pow 2 exponent.toNat)
  let bits :=
    if significand < Nat.pow 2 52 then significand
    else (exponent + 1075).toNat * Nat.pow 2 52 + (significand - Nat.pow 2 52)
  min bits (2047 * Nat.pow 2 52)

/-- The number nearest to `num / den`, with the given sign. -/
def nearest (negative : Bool) (num den : Nat) : Binary64 :=
  ⟨.ofNat ((if negative then Nat.pow 2 63 else 0) + nearestBits num den)⟩

/-- The binary64 number with the value of a binary32 number, which is given by its bits. -/
def ofBinary32 (bits : UInt32) : Binary64 :=
  let negative := Nat.pow 2 31 ≤ bits.toNat
  let exponentField := bits.toNat / Nat.pow 2 23 % Nat.pow 2 8
  let fractionField := bits.toNat % Nat.pow 2 23
  if exponentField = 255 then
    ⟨.ofNat ((if negative then Nat.pow 2 63 else 0) + 2047 * Nat.pow 2 52 +
      fractionField * Nat.pow 2 29)⟩
  else if exponentField = 0 then nearest negative fractionField (Nat.pow 2 149)
  else
    nearest negative ((Nat.pow 2 23 + fractionField) * Nat.pow 2 exponentField) (Nat.pow 2 150)

end Binary64

end SearchFilter
