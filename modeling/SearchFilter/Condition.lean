import SearchFilter.Key
import SearchFilter.Operand

/-!
# Conditions

A condition is a field, an operator and an operand that fits the operator: a list for the
membership operators, nothing for the existence operators, and a scalar for all others. Numbers
must be finite. A condition is written under a sign, since negation is pushed down to it.
-/

namespace SearchFilter

/-- One test of one field. -/
structure Condition where
  field : String
  op : Operator
  value : Operand
  deriving BEq, DecidableEq, Repr

namespace Condition

/-- The operand as `op` takes it. An existence operator drops whatever is given. -/
def checkOperand (target : String) (op : Operator) (value : Operand) : Except Error Operand :=
  if op.isExistence then .ok .none
  else if !value.isFinite then
    .error (.invalidValue target "finite number" "non-finite number")
  else if op.isMembership then
    match value with
    | .list items => .ok (.list items)
    | other => .error (.invalidValue target "list" other.kind)
  else
    match value with
    | .scalar s => .ok (.scalar s)
    | other => .error (.invalidValue target "scalar" other.kind)

/-- The condition with these parts. A misfit is reported against the field. -/
def new (field : String) (op : Operator) (value : Operand) : Except Error Condition := do
  let value ← checkOperand field op value
  return { field, op, value }

/-- The condition that a key and its operand stand for. A misfit is reported against the key. -/
def parse (key : String) (value : Operand) : Except Error Condition := do
  let (field, op) ← Key.split key
  let value ← checkOperand key op value
  return { field, op, value }

/-- The condition in the filter language, negated if `negate` holds. -/
def render (c : Condition) (negate : Bool) : String :=
  let op := c.op.effective negate
  if op.isExistence then c.field ++ " " ++ op.token
  else c.field ++ " " ++ op.token ++ " " ++ c.value.format

/-- The condition in words, negated if `negate` holds. -/
def explain (c : Condition) (negate : Bool) : String :=
  let op := c.op.effective negate
  let subject := "field \"" ++ c.field ++ "\": " ++ op.describe
  if op.isExistence then subject else subject ++ " " ++ c.value.format

end Condition

end SearchFilter
