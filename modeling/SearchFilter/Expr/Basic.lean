import SearchFilter.Condition

/-!
# Filter expressions

A filter is a tree. Its leaves hold entries, which are keyed operands that all have to hold, and its
inner nodes join two filters by a connective. Every node has a negation flag of its own, and nothing
is pushed down until the filter is written. An empty leaf is the unit of composition, so the
operations below never put one under a node.
-/

namespace SearchFilter

/-- A condition as it is given: a key and an operand, not yet checked against each other. -/
structure Entry where
  key : String
  value : Operand
  deriving BEq, DecidableEq, Repr

/-- The condition that an entry stands for. -/
def Entry.condition (entry : Entry) : Except Error Condition :=
  Condition.parse entry.key entry.value

inductive Expr where
  | leaf (negated : Bool) (entries : List Entry)
  | node (negated : Bool) (op : Connective) (left right : Expr)
  deriving BEq, DecidableEq, Repr

namespace Expr

def empty : Expr := leaf false []

instance : Inhabited Expr := ⟨empty⟩

def single (key : String) (value : Operand) : Expr :=
  leaf false [⟨key, value⟩]

/-- The filter of one condition, whose field and operator make up the key. -/
def typed (field : String) (op : Operator) (value : Operand) : Expr :=
  single (Key.join field op) value

def present (field : String) : Expr := typed field .present .none

def absent (field : String) : Expr := typed field .absent .none

def isNegated : Expr → Bool
  | leaf negated _ | node negated _ _ _ => negated

def isLeaf : Expr → Bool
  | leaf .. => true
  | node .. => false

/-- The filter is a leaf without entries, whatever its flag. -/
def isEmpty : Expr → Bool
  | leaf _ entries => entries.isEmpty
  | node .. => false

def connective? : Expr → Option Connective
  | leaf .. => none
  | node _ op _ _ => some op

def children? : Expr → Option (Expr × Expr)
  | leaf .. => none
  | node _ _ left right => some (left, right)

/-- The conditions of a leaf, or the first fault among them. A node has none of its own. -/
def conditions : Expr → Except Error (List Condition)
  | leaf _ entries => entries.mapM Entry.condition
  | node .. => .ok []

def negate : Expr → Expr
  | leaf negated entries => leaf (!negated) entries
  | node negated op left right => node (!negated) op left right

/-- Joins two filters. An empty operand is dropped, and its flag with it. -/
def combine (op : Connective) (left right : Expr) : Expr :=
  if right.isEmpty then left
  else if left.isEmpty then right
  else node false op left right

def and (left right : Expr) : Expr := combine .and left right

def or (left right : Expr) : Expr := combine .or left right

/-- Adds an entry: to the entries of a leaf, under its flag, and to a node as a leaf of its own. -/
def addEntry (q : Expr) (entry : Entry) : Expr :=
  match q with
  | leaf negated entries => leaf negated (entries ++ [entry])
  | node .. => q.and (leaf false [entry])

def ofEntries (entries : List Entry) : Expr :=
  entries.foldl addEntry empty

def size : Expr → Nat
  | leaf .. => 1
  | node _ _ left right => left.size + right.size + 1

theorem size_pos (q : Expr) : 0 < q.size := by
  cases q <;> simp [size]

/-- The number of nodes and leaves of the filters on a worklist. -/
def pendingSize : List (Expr × Nat) → Nat
  | [] => 0
  | (q, _) :: rest => q.size + pendingSize rest

theorem pendingSize_rest_lt (q : Expr) (level : Nat) (rest : List (Expr × Nat)) :
    pendingSize rest < pendingSize ((q, level) :: rest) :=
  Nat.lt_add_of_pos_left q.size_pos

theorem pendingSize_operands_lt (negated : Bool) (op : Connective) (left right : Expr)
    (level below : Nat) (rest : List (Expr × Nat)) :
    pendingSize ((left, below) :: (right, below) :: rest) <
      pendingSize ((node negated op left right, level) :: rest) := by
  simp only [pendingSize, size]
  omega

/-- The greatest level of a leaf below the filters on a worklist, each with its own level. -/
def deepest (found : Nat) : List (Expr × Nat) → Nat
  | [] => found
  | (leaf .., level) :: rest => deepest (max found level) rest
  | (node _ _ left right, level) :: rest =>
    deepest found ((left, level + 1) :: (right, level + 1) :: rest)
termination_by worklist => pendingSize worklist
decreasing_by
  · exact pendingSize_rest_lt _ _ rest
  · exact pendingSize_operands_lt _ _ left right level (level + 1) rest

/-- How many nodes lie above the deepest leaf. -/
def depth (q : Expr) : Nat := deepest 0 [(q, 0)]

@[simp]
theorem negate_negate (q : Expr) : q.negate.negate = q := by
  cases q <;> simp [negate]

end Expr

end SearchFilter
