import SearchFilter.Expr.Walk

/-!
# The texts of a filter

A filter has three texts: the filter language's own, on one line; the same with a line for every
word and a level of indentation for every node; and a description in English. Negation is written
by the dual connectives and the negated operators alone. The conditions of a leaf are joined with
"AND" under either sign.
-/

namespace SearchFilter.Expr

/-- The entries of a leaf in the filter language, under a sign. -/
def renderLeaf (entries : List Entry) (negate : Bool) : Except Error String := do
  let conditions ← entries.mapM Entry.condition
  return " AND ".intercalate (conditions.map (·.render negate))

def indent (level : Nat) (line : String) : String :=
  String.ofList (List.replicate (4 * level) ' ') ++ line

/-- The filter language on one line. -/
def renderEvent : Event → Except Error (List String)
  | .enter _ => .ok ["("]
  | .between op _ => .ok [") " ++ op.token ++ " ("]
  | .exit _ => .ok [")"]
  | .leaf entries negate _ => do return [← renderLeaf entries negate]

/-- The filter language on several lines. -/
def prettifyEvent : Event → Except Error (List String)
  | .enter level => .ok [indent level "("]
  | .between op level => .ok [indent level ")", indent level op.token, indent level "("]
  | .exit level => .ok [indent level ")"]
  | .leaf entries negate level => do return [indent level (← renderLeaf entries negate)]

/-- English, with a line for every condition. -/
def explainEvent : Event → Except Error (List String)
  | .enter level => .ok [indent level "BEGIN"]
  | .between op level => .ok [indent level op.token]
  | .exit _ => .ok []
  | .leaf entries negate level => do
    let conditions ← entries.mapM Entry.condition
    return conditions.map fun c => indent level (c.explain negate)

/-- The filter in the filter language. Every operand of a connective stands between brackets. -/
def render (q : Expr) : Except Error String :=
  String.join <$> q.collect renderEvent

/-- The filter in the filter language, with a line for every bracket, connective and leaf. -/
def prettify (q : Expr) : Except Error String :=
  "\n".intercalate <$> q.collect prettifyEvent

/-- The filter in English. A node opens a block, which ends where the indentation does. -/
def explain (q : Expr) : Except Error String :=
  "\n".intercalate <$> q.collect explainEvent

end SearchFilter.Expr
