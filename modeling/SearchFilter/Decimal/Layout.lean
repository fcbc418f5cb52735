import SearchFilter.Decimal.Shortest

/-!
# Decimal layouts

How the digits of a number are set out: positionally, always with a digit on either side of the
point, or with one digit before the point and a power of ten after an `e`. A layout is the choice
between the two, together with the rule for ties.
-/

namespace SearchFilter.Decimal

/-- Magnitudes from `10 ^ low` to below `10 ^ high` are written positionally. -/
structure Layout where
  low : Int
  high : Int
  tie : Tie
  deriving DecidableEq, Repr

/-- The digits of a positive decimal `0.d₁d₂… * 10 ^ point` without an exponent. -/
def positional (digits : List Char) (point : Int) : List Char :=
  if point ≤ 0 then '0' :: '.' :: List.replicate (-point).toNat '0' ++ digits
  else if digits.length ≤ point.toNat then
    digits ++ List.replicate (point.toNat - digits.length) '0' ++ ['.', '0']
  else digits.take point.toNat ++ '.' :: digits.drop point.toNat

/-- The digits of a positive decimal `0.d₁d₂… * 10 ^ point` with an exponent. -/
def scientific (digits : List Char) (point : Int) : List Char :=
  let fraction := digits.drop 1
  digits.take 1 ++ (if fraction.isEmpty then [] else '.' :: fraction) ++
    'e' :: (toString (point - 1)).toList

namespace Layout

def digitsText (layout : Layout) (d : Digits) : List Char :=
  let digits := Nat.toDigits 10 d.coefficient
  let point := digits.length + d.exponent
  if layout.low < point ∧ point ≤ layout.high then positional digits point
  else scientific digits point

/-- The text of a finite number. Zero keeps its sign. -/
def text (layout : Layout) (x : Binary64) : String :=
  let sign := if x.isNegative then ['-'] else []
  let magnitude :=
    if x.isZero then ['0', '.', '0'] else layout.digitsText (shortest layout.tie x)
  String.ofList (sign ++ magnitude)

end Layout

end SearchFilter.Decimal
