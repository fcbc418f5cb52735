import SearchFilter.Operator
import SearchFilter.Decimal.Layout

/-!
# Operands

What a condition compares its field with: a scalar, a list of scalars, or nothing. An operand keeps
the representation of its numbers apart, since a signed, an unsigned and a binary64 number are
never equal. Equality as values is `==`, which compares binary64 numbers as numbers, so that NaN
differs from itself; `=` is equality of the data.
-/

namespace SearchFilter

inductive Number where
  | signed (n : Int64)
  | unsigned (n : UInt64)
  | double (x : Binary64)
  deriving BEq, DecidableEq, Repr

namespace Number

/-- Numbers are positional from 0.0001 to below 10^16, and the digits of a tie are rounded away
from zero. -/
def layout : Decimal.Layout := ⟨-4, 16, .awayFromZero⟩

def text : Number → String
  | signed n => toString n.toInt
  | unsigned n => toString n.toNat
  | double x =>
    if x.isFinite then layout.text x
    else if x.isNaN then "NaN"
    else if x.isNegative then "-inf"
    else "inf"

def isFinite : Number → Bool
  | double x => x.isFinite
  | _ => true

instance : Coe Int8 Number := ⟨fun n => signed n.toInt64⟩
instance : Coe Int16 Number := ⟨fun n => signed n.toInt64⟩
instance : Coe Int32 Number := ⟨fun n => signed n.toInt64⟩
instance : Coe Int64 Number := ⟨signed⟩
instance : Coe UInt8 Number := ⟨fun n => unsigned n.toUInt64⟩
instance : Coe UInt16 Number := ⟨fun n => unsigned n.toUInt64⟩
instance : Coe UInt32 Number := ⟨fun n => unsigned n.toUInt64⟩
instance : Coe UInt64 Number := ⟨unsigned⟩
instance : Coe Binary64 Number := ⟨double⟩

end Number

inductive Scalar where
  | string (s : String)
  | number (n : Number)
  | bool (b : Bool)
  deriving BEq, DecidableEq, Repr

namespace Scalar

/-- A text between quotes. Nothing in it is escaped. -/
def quote (text : String) : String :=
  "\"" ++ text ++ "\""

/-- The text of a scalar. A string with a space in it is quoted. -/
def format : Scalar → String
  | string s => if s.toList.contains ' ' then quote s else s
  | number n => n.text
  | bool true => "true"
  | bool false => "false"

/-- The text of a scalar in a list, where a text that reads as an operator is quoted. -/
def formatElement (s : Scalar) : String :=
  if Operator.isReserved s.format then quote s.format else s.format

/-- The name of the scalar's type in error messages. -/
def kind : Scalar → String
  | string _ => "string"
  | number _ => "number"
  | bool _ => "boolean"

def isFinite : Scalar → Bool
  | number n => n.isFinite
  | _ => true

instance : Coe String Scalar := ⟨string⟩
instance : Coe Bool Scalar := ⟨bool⟩
instance : Coe Number Scalar := ⟨number⟩

end Scalar

inductive Operand where
  | scalar (s : Scalar)
  | list (items : List Scalar)
  | none
  deriving BEq, DecidableEq, Repr

namespace Operand

/-- The text of an operand. The items of a list are separated by commas alone. -/
def format : Operand → String
  | scalar s => s.format
  | list items => "[" ++ ",".intercalate (items.map Scalar.formatElement) ++ "]"
  | none => ""

/-- The name of the operand's shape or type in error messages. -/
def kind : Operand → String
  | scalar s => s.kind
  | list _ => "list"
  | none => "nothing"

def isList : Operand → Bool
  | list _ => true
  | _ => false

def isNone : Operand → Bool
  | none => true
  | _ => false

/-- No number in the operand is NaN or an infinity. -/
def isFinite : Operand → Bool
  | scalar s => s.isFinite
  | list items => items.all Scalar.isFinite
  | none => true

instance : Coe Scalar Operand := ⟨scalar⟩

end Operand

end SearchFilter
