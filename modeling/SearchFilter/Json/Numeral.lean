import SearchFilter.Decimal.Scaled
import SearchFilter.Json.Basic

/-!
# JSON numerals

A number as it is written, and its value. A numeral without fraction and exponent is an integer if
it fits into 64 bits, signed or not. Every other numeral is a binary64 number, and so is negative
zero.
-/

namespace SearchFilter.Json

structure Power where
  negative : Bool
  digits : List Char
  deriving DecidableEq, Repr

structure Numeral where
  negative : Bool
  whole : List Char
  fraction : Option (List Char)
  power : Option Power
  deriving DecidableEq, Repr

namespace Numeral

/-- The digits at the start of a text and what follows them. There has to be a digit. -/
def takeDigits? (cs : List Char) : Option (List Char × List Char) :=
  let digits := cs.takeWhile Char.isDigit
  if digits.isEmpty then none else some (digits, cs.dropWhile Char.isDigit)

/-- The digits before the point. A zero stands alone. -/
def takeWhole? (cs : List Char) : Option (List Char × List Char) := do
  let (digits, rest) ← takeDigits? cs
  if digits.head? = some '0' ∧ digits.length ≠ 1 then none else some (digits, rest)

def takeFraction? : List Char → Option (Option (List Char) × List Char)
  | '.' :: cs => do
    let (digits, rest) ← takeDigits? cs
    return (some digits, rest)
  | cs => some (none, cs)

def takeSign : List Char → Bool × List Char
  | '-' :: cs => (true, cs)
  | '+' :: cs => (false, cs)
  | cs => (false, cs)

def takePower? : List Char → Option (Option Power × List Char)
  | [] => some (none, [])
  | c :: cs => do
    if c = 'e' ∨ c = 'E' then
      let (negative, cs) := takeSign cs
      let (digits, rest) ← takeDigits? cs
      return (some ⟨negative, digits⟩, rest)
    else return (none, c :: cs)

/-- The numeral that is the whole of a text. -/
def ofChars? (cs : List Char) : Option Numeral := do
  let (negative, cs) := match cs with
    | '-' :: cs => (true, cs)
    | cs => (false, cs)
  let (whole, cs) ← takeWhole? cs
  let (fraction, cs) ← takeFraction? cs
  let (power, cs) ← takePower? cs
  if cs.isEmpty then some { negative, whole, fraction, power } else none

/-- The integer that a numeral without fraction and exponent stands for, without its sign. -/
def magnitude? (n : Numeral) : Option Nat :=
  if n.fraction.isNone ∧ n.power.isNone then some (Decimal.ofDigits n.whole) else none

def exponent (n : Numeral) : Int :=
  match n.power with
  | none => 0
  | some power =>
    if power.negative then -(Decimal.ofDigits power.digits : Int)
    else Decimal.ofDigits power.digits

/-- The binary64 number of a numeral, unless it is too large. -/
def toDouble? (n : Numeral) : Option Binary64 := do
  let (significand, taken) := Decimal.appendDigits 0 n.whole
  let (significand, places) := Decimal.appendDigits significand (n.fraction.getD [])
  let x ← Decimal.scale? significand (n.exponent + (n.whole.length - taken : Nat) - places)
  return if n.negative then ⟨x.bits + 0x8000000000000000⟩ else x

def toJson? (n : Numeral) : Option Json :=
  match n.magnitude? with
  | some m =>
    if n.negative then
      if 0 < m ∧ m ≤ 0x8000000000000000 then some (int (-m)) else double <$> n.toDouble?
    else if m < UInt64.size then some (int m)
    else double <$> n.toDouble?
  | none => double <$> n.toDouble?

/-- The natural number below `2 ^ 64` of a numeral without sign, fraction and exponent. -/
def toUInt64? (n : Numeral) : Option UInt64 := do
  let m ← n.magnitude?
  if n.negative = false ∧ m < UInt64.size then some (.ofNat m) else none

end Numeral

end SearchFilter.Json
