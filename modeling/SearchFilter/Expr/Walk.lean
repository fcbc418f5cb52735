import SearchFilter.Expr.Basic

/-!
# Walking a filter

The filter's text and its description are both written along one walk of its tree. The walk meets a
node before its left operand, between the operands and after the right one, and it hands the sign of
every node down, so that the connectives and leaves it reports are those to be written. It keeps
what is still to come on a stack, which makes the nesting of the filter immaterial.
-/

namespace SearchFilter.Expr

universe u

/-- What a walk reports, in order. Levels count the nodes above. -/
inductive Event where
  | enter (level : Nat)
  /-- The connective is the one to be written. -/
  | between (op : Connective) (level : Nat)
  | exit (level : Nat)
  /-- The conditions of the leaf are to be written under the sign `negate`. -/
  | leaf (entries : List Entry) (negate : Bool) (level : Nat)
  deriving DecidableEq, Repr

/-- What a walk has still to do. -/
inductive Step where
  | expr (q : Expr) (inherited : Bool) (level : Nat)
  | between (op : Connective) (level : Nat)
  | exit (level : Nat)

def eventCount : Expr → Nat
  | leaf .. => 1
  | node _ _ left right => left.eventCount + right.eventCount + 3

def Step.eventCount : Step → Nat
  | expr q _ _ => q.eventCount
  | between .. | exit _ => 1

theorem Step.eventCount_pos (step : Step) : 0 < step.eventCount := by
  cases step with
  | expr q inherited level => cases q <;> simp [Step.eventCount, Expr.eventCount]
  | between op level | exit level => exact Nat.one_pos

/-- How many events the steps on a stack stand for. -/
def pendingEvents : List Step → Nat
  | [] => 0
  | step :: rest => step.eventCount + pendingEvents rest

theorem pendingEvents_rest_lt (step : Step) (rest : List Step) :
    pendingEvents rest < pendingEvents (step :: rest) :=
  Nat.lt_add_of_pos_left step.eventCount_pos

theorem pendingEvents_operands_lt (negated : Bool) (op effective : Connective)
    (left right : Expr) (inherited negate : Bool) (level below : Nat) (rest : List Step) :
    pendingEvents (.expr left negate below :: .between effective level ::
        .expr right negate below :: .exit level :: rest) <
      pendingEvents (.expr (node negated op left right) inherited level :: rest) := by
  simp only [pendingEvents, Step.eventCount, eventCount]
  omega

/-- Reports the events of the steps on a stack. -/
@[specialize]
def walkFrom {m : Type → Type u} [Monad m] (visit : Event → m Unit) : List Step → m Unit
  | [] => pure ()
  | .expr (leaf negated entries) inherited level :: rest => do
    visit (.leaf entries (inherited ^^ negated) level)
    walkFrom visit rest
  | .expr (node negated op left right) inherited level :: rest => do
    let negate := inherited ^^ negated
    visit (.enter level)
    walkFrom visit (.expr left negate (level + 1) :: .between (op.effective negate) level ::
      .expr right negate (level + 1) :: .exit level :: rest)
  | .between op level :: rest => do
    visit (.between op level)
    walkFrom visit rest
  | .exit level :: rest => do
    visit (.exit level)
    walkFrom visit rest
termination_by stack => pendingEvents stack
decreasing_by
  · exact pendingEvents_rest_lt _ rest
  · exact pendingEvents_operands_lt negated op _ left right inherited _ level _ rest
  · exact pendingEvents_rest_lt _ rest
  · exact pendingEvents_rest_lt _ rest

/-- Reports the events of a filter to `visit`, from left to right. -/
@[specialize]
def walk {m : Type → Type u} [Monad m] (q : Expr) (visit : Event → m Unit) : m Unit :=
  walkFrom visit [.expr q false 0]

/-- The events of a filter under the sign and at the level that it inherits. -/
def events (inherited : Bool) (level : Nat) : Expr → List Event
  | leaf negated entries => [.leaf entries (inherited ^^ negated) level]
  | node negated op left right =>
    let negate := inherited ^^ negated
    .enter level :: left.events negate (level + 1) ++
      .between (op.effective negate) level :: right.events negate (level + 1) ++ [.exit level]

/-- What `write` gives for the events of a filter, in order. The first fault ends the walk. -/
def collect (q : Expr) (write : Event → Except Error (List String)) :
    Except Error (List String) := do
  let visit (event : Event) : StateT (Array String) (Except Error) Unit := do
    let pieces ← write event
    modify fun (written : Array String) => written ++ pieces
  let (_, written) ← (q.walk visit).run #[]
  return written.toList

end SearchFilter.Expr
