import SearchFilter.Expr.Render
import SearchFilter.Json.Text

/-!
# Filter trees

The structured form of a filter, in which a node is a group of two and a leaf is its text in the
filter language. The filter language's readers limit how deep groups may nest, so a filter that is
too deep is refused before anything else is looked at. The JSON form of a tree is a nested array,
which does not show the connectives.
-/

namespace SearchFilter

/-- A filter with its signs pushed down and its leaves written. -/
inductive FilterTree where
  | leaf (text : String)
  | group (op : Connective) (left right : FilterTree)
  deriving DecidableEq, Repr

namespace FilterTree

def toJson : FilterTree → Json
  | leaf text => .string text
  | group _ left right => .array [left.toJson, right.toJson]

/-- The tree in any form: a leaf is a string, and a group is a sequence of two. -/
def write {α : Type} (format : Json.Format α) : FilterTree → α
  | leaf text => format.string text
  | group _ left right => format.sequence [left.write format, right.write format]

def text (tree : FilterTree) : String :=
  tree.write .text

end FilterTree

namespace Expr

/-- The tree of a filter under a sign. -/
def treeFrom (inherited : Bool) : Expr → Except Error FilterTree
  | leaf negated entries => do return .leaf (← renderLeaf entries (inherited ^^ negated))
  | node negated op left right => do
    let negate := inherited ^^ negated
    let left ← left.treeFrom negate
    let right ← right.treeFrom negate
    return .group (op.effective negate) left right

/-- The tree of a filter that nests at most `max` levels. -/
def renderTree (q : Expr) (max : Nat) : Except Error FilterTree :=
  if max < q.depth then .error (.depthExceeded q.depth max) else q.treeFrom false

end Expr

end SearchFilter
