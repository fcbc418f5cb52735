import SearchFilter.Expr.Walk

/-!
# The loop of the walk

The walk is a loop over a stack on which operands, connectives and ends of nodes wait for their
turn. A turn reports one event and leaves a stack that stands for all the events but this one. So
whatever stack the loop has come to, what it still has to report are the events of the recursion
over what is on the stack. Each turn takes one from their number, and that is why the loop ends.
-/

namespace SearchFilter.Expr

def Step.events : Step → List Event
  | expr q inherited level => q.events inherited level
  | between op level => [.between op level]
  | exit level => [.exit level]

/-- The events that the steps on a stack stand for. -/
def remaining (stack : List Step) : List Event :=
  stack.flatMap Step.events

/-- A turn of the loop, with a step on top of the stack: what is reported, and the stack after. -/
def turn : Step → List Step → Event × List Step
  | .expr (leaf negated entries) inherited level, rest =>
    (.leaf entries (inherited ^^ negated) level, rest)
  | .expr (node negated op left right) inherited level, rest =>
    let negate := inherited ^^ negated
    (.enter level, .expr left negate (level + 1) :: .between (op.effective negate) level ::
      .expr right negate (level + 1) :: .exit level :: rest)
  | .between op level, rest => (.between op level, rest)
  | .exit level, rest => (.exit level, rest)

/-- The loop comes from one stack to another, and these are the events that it reports meanwhile. -/
inductive Reaches : List Step → List Event → List Step → Prop where
  | refl (stack : List Step) : Reaches stack [] stack
  | turn {step : Step} {rest stack : List Step} {events : List Event} :
      Reaches (turn step rest).2 events stack →
      Reaches (step :: rest) ((turn step rest).1 :: events) stack

theorem remaining_turn (step : Step) (rest : List Step) :
    remaining (step :: rest) = (turn step rest).1 :: remaining (turn step rest).2 := by
  match step with
  | .expr (leaf negated entries) inherited level => rfl
  | .expr (node negated op left right) inherited level =>
      simp [remaining, turn, Step.events, events]
  | .between op level => rfl
  | .exit level => rfl

theorem length_events (q : Expr) (inherited : Bool) (level : Nat) :
    (q.events inherited level).length = q.eventCount := by
  induction q generalizing inherited level with
  | leaf negated entries => rfl
  | node negated op left right ihLeft ihRight =>
      simp only [events, List.length_append, List.length_cons, List.length_nil, ihLeft, ihRight,
        eventCount]
      omega

theorem length_remaining (stack : List Step) : (remaining stack).length = pendingEvents stack := by
  induction stack with
  | nil => rfl
  | cons step rest ih =>
      have hstep : step.events.length = step.eventCount := by
        cases step with
        | expr q inherited level => exact q.length_events inherited level
        | between op level | exit level => rfl
      rw [remaining, List.flatMap_cons, List.length_append, ← remaining, ih, hstep, pendingEvents]

theorem pendingEvents_turn (step : Step) (rest : List Step) :
    pendingEvents (step :: rest) = pendingEvents (turn step rest).2 + 1 := by
  rw [← length_remaining, remaining_turn, List.length_cons, length_remaining]

/-- The loop ends, so what holds of the empty stack and is taken back over a turn holds of all. -/
@[elab_as_elim]
theorem loop_induction {motive : List Step → Prop} (done : motive [])
    (turn : ∀ step rest, motive (turn step rest).2 → motive (step :: rest)) (stack : List Step) :
    motive stack := by
  match stack with
  | [] => exact done
  | step :: rest => exact turn step rest (loop_induction done turn _)
termination_by pendingEvents stack
decreasing_by
  rw [pendingEvents_turn step rest]
  exact Nat.lt_succ_self _

theorem reaches_nil (stack : List Step) : Reaches stack (remaining stack) [] := by
  induction stack using loop_induction with
  | done => exact .refl []
  | turn step rest ih =>
      rw [remaining_turn]
      exact .turn ih

theorem Reaches.append_remaining {stack stack' : List Step} {before : List Event}
    (h : Reaches stack before stack') : before ++ remaining stack' = remaining stack := by
  induction h with
  | refl stack => rfl
  | turn _ ih => rw [List.cons_append, ih, ← remaining_turn]

theorem walkFrom_cons {m : Type → Type _} [Monad m] (visit : Event → m Unit) (step : Step)
    (rest : List Step) :
    walkFrom visit (step :: rest) =
      (do visit (turn step rest).1; walkFrom visit (turn step rest).2) := by
  match step with
  | .expr (leaf negated entries) inherited level => rw [walkFrom, turn]
  | .expr (node negated op left right) inherited level => rw [walkFrom, turn]
  | .between op level => rw [walkFrom, turn]
  | .exit level => rw [walkFrom, turn]

theorem walkFrom_eq {m : Type → Type _} [Monad m] (visit : Event → m Unit) (stack : List Step) :
    walkFrom visit stack = forM (remaining stack) visit := by
  induction stack using loop_induction with
  | done => rw [walkFrom, remaining, List.flatMap_nil, List.forM_nil]
  | turn step rest ih => rw [walkFrom_cons, ih, remaining_turn, List.forM_cons]

theorem walk_eq_forM {m : Type → Type _} [Monad m] (q : Expr) (visit : Event → m Unit) :
    q.walk visit = forM (q.events false 0) visit := by
  rw [walk, walkFrom_eq, remaining, List.flatMap_singleton, Step.events]

end SearchFilter.Expr
