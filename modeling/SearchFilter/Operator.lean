/-!
# Operators

The comparison operators of the filter language and the two connectives between filters. Every
operator has a suffix, which stands in keys, and a token, which stands in filter text. Negation is
an involution on both types, so a negated filter is written without a token for "not".
-/

namespace SearchFilter

inductive Operator where
  | eq
  | ne
  | gt
  | ge
  | lt
  | le
  | isIn
  | notIn
  | present
  | absent
  deriving DecidableEq, Repr

namespace Operator

/-- A test that names no operator is a test for equality. -/
instance : Inhabited Operator := ⟨eq⟩

def all : List Operator :=
  [eq, ne, gt, ge, lt, le, isIn, notIn, present, absent]

theorem mem_all (op : Operator) : op ∈ all := by
  cases op <;> simp [all]

/-- The word that names the operator at the end of a key. -/
def suffix : Operator → String
  | eq => "eq"
  | ne => "neq"
  | gt => "gt"
  | ge => "gte"
  | lt => "lt"
  | le => "lte"
  | isIn => "in"
  | notIn => "nin"
  | present => "exists"
  | absent => "not_exists"

/-- The second accepted spelling of the suffix of `absent`. -/
def absentAlias : String := "not exists"

/-- The operator that a suffix names. Case matters. -/
def ofSuffix? : String → Option Operator
  | "eq" => some eq
  | "neq" => some ne
  | "gt" => some gt
  | "gte" => some ge
  | "lt" => some lt
  | "lte" => some le
  | "in" => some isIn
  | "nin" => some notIn
  | "exists" => some present
  | "not_exists" => some absent
  | "not exists" => some absent
  | _ => none

/-- The word or sign that stands for the operator in filter text. -/
def token : Operator → String
  | eq => "="
  | ne => "!="
  | gt => ">"
  | ge => ">="
  | lt => "<"
  | le => "<="
  | isIn => "IN"
  | notIn => "NOT IN"
  | present => "EXISTS"
  | absent => "NOT EXISTS"

/-- The operator that holds exactly where this one does not. -/
def negated : Operator → Operator
  | eq => ne
  | ne => eq
  | gt => le
  | ge => lt
  | lt => ge
  | le => gt
  | isIn => notIn
  | notIn => isIn
  | present => absent
  | absent => present

/-- The operator that is written where the sign of its condition is `negate`. -/
def effective (op : Operator) (negate : Bool) : Operator :=
  if negate then op.negated else op

/-- Membership operators take a list. -/
def isMembership : Operator → Bool
  | isIn | notIn => true
  | _ => false

/-- Existence operators take no operand. -/
def isExistence : Operator → Bool
  | present | absent => true
  | _ => false

def describe : Operator → String
  | eq => "is equal to"
  | ne => "is not equal to"
  | gt => "is greater than"
  | ge => "is greater than or equal to"
  | lt => "is less than"
  | le => "is less than or equal to"
  | isIn => "is in"
  | notIn => "is not in"
  | present => "exists"
  | absent => "does not exist"

/-- A text that reads as an operator, by its suffix or by its token, and must not stand bare in a
list. -/
def isReserved (text : String) : Bool :=
  all.any (fun op => op.suffix == text || op.token == text) || text == absentAlias

theorem ofSuffix?_suffix (op : Operator) : ofSuffix? op.suffix = some op := by
  cases op <;> rfl

@[simp]
theorem negated_negated (op : Operator) : op.negated.negated = op := by
  cases op <;> rfl

@[simp]
theorem isMembership_negated (op : Operator) : op.negated.isMembership = op.isMembership := by
  cases op <;> rfl

@[simp]
theorem isExistence_negated (op : Operator) : op.negated.isExistence = op.isExistence := by
  cases op <;> rfl

@[simp]
theorem effective_false (op : Operator) : op.effective false = op := rfl

@[simp]
theorem effective_true (op : Operator) : op.effective true = op.negated := rfl

end Operator

inductive Connective where
  | and
  | or
  deriving DecidableEq, Repr

namespace Connective

def token : Connective → String
  | and => "AND"
  | or => "OR"

/-- The connective of the negated operands of a negated filter. -/
def dual : Connective → Connective
  | and => or
  | or => and

/-- The connective that is written where the sign of its filter is `negate`. -/
def effective (op : Connective) (negate : Bool) : Connective :=
  if negate then op.dual else op

@[simp]
theorem dual_dual (op : Connective) : op.dual.dual = op := by
  cases op <;> rfl

end Connective

end SearchFilter
