import SearchFilter.Expr.Tree
import SearchFilter.Proofs.Expr.Loop
import SearchFilter.Proofs.Fault
import Mathlib

/-!
# Normal forms

A filter is written with its signs pushed down: a connective under a negative sign is written as its
dual, and a leaf hands the sign that reaches it to its conditions. What a filter is written from is
therefore its normal form, a tree without flags. Both ways to write a filter read it alike. The walk
reports the events of the normal form, and the recursion that builds the filter tree writes its
leaves. So every view of a filter is a function of the normal form alone.
-/

namespace SearchFilter

/-- A filter whose signs have been pushed down to its leaves. -/
inductive NormalForm where
  | leaf (negate : Bool) (entries : List Entry)
  | group (op : Connective) (left right : NormalForm)
  deriving DecidableEq, Repr

namespace NormalForm

/-- What a walk reports of the form at a level. -/
def events (level : Nat) : NormalForm → List Expr.Event
  | leaf negate entries => [.leaf entries negate level]
  | group op left right =>
    .enter level :: left.events (level + 1) ++
      .between op level :: right.events (level + 1) ++ [.exit level]

/-- The form with its leaves written, or the first fault among them. -/
def tree : NormalForm → Except Error FilterTree
  | leaf negate entries => do return .leaf (← Expr.renderLeaf entries negate)
  | group op left right => do
    let left ← left.tree
    let right ← right.tree
    return .group op left right

def depth : NormalForm → Nat
  | leaf .. => 0
  | group _ left right => max left.depth right.depth + 1

/-- The form of the negated filter. -/
def dual : NormalForm → NormalForm
  | leaf negate entries => leaf (!negate) entries
  | group op left right => group op.dual left.dual right.dual

end NormalForm

theorem Connective.effective_not (op : Connective) (negate : Bool) :
    op.effective (!negate) = (op.effective negate).dual := by
  cases negate <;> simp [Connective.effective]

namespace Expr

/-- The normal form of a filter under the sign that it inherits. -/
def normalForm (inherited : Bool) : Expr → NormalForm
  | leaf negated entries => .leaf (inherited ^^ negated) entries
  | node negated op left right =>
    let negate := inherited ^^ negated
    .group (op.effective negate) (left.normalForm negate) (right.normalForm negate)

theorem normalForm_not (q : Expr) (inherited : Bool) :
    q.normalForm (!inherited) = (q.normalForm inherited).dual := by
  induction q generalizing inherited with
  | leaf negated entries => simp [normalForm, NormalForm.dual]
  | node negated op left right ihLeft ihRight =>
      have hsign : (!inherited ^^ negated) = !(inherited ^^ negated) := Bool.not_bne _ _
      simp only [normalForm, NormalForm.dual, hsign, Connective.effective_not, ihLeft, ihRight]

theorem normalForm_negate (q : Expr) (inherited : Bool) :
    q.negate.normalForm inherited = q.normalForm (!inherited) := by
  cases q <;> simp [negate, normalForm]

theorem events_eq (q : Expr) (inherited : Bool) (level : Nat) :
    q.events inherited level = (q.normalForm inherited).events level := by
  induction q generalizing inherited level with
  | leaf negated entries => rfl
  | node negated op left right ihLeft ihRight =>
      simp only [events, normalForm, NormalForm.events, ihLeft, ihRight]

theorem treeFrom_eq (q : Expr) (inherited : Bool) :
    q.treeFrom inherited = (q.normalForm inherited).tree := by
  induction q generalizing inherited with
  | leaf negated entries => rfl
  | node negated op left right ihLeft ihRight =>
      simp only [treeFrom, normalForm, NormalForm.tree, ihLeft, ihRight]

/-! ### Depth

The worklist holds filters at levels of their own, and each of them counts with its level and its
depth. -/

theorem deepest_cons (q : Expr) (inherited : Bool) (found level : Nat) (rest : List (Expr × Nat)) :
    deepest found ((q, level) :: rest) =
      deepest (max found (level + (q.normalForm inherited).depth)) rest := by
  induction q generalizing inherited found level rest with
  | leaf negated entries => simp [deepest, normalForm, NormalForm.depth]
  | node negated op left right ihLeft ihRight =>
      rw [deepest, ihLeft (inherited ^^ negated), ihRight (inherited ^^ negated)]
      congr 1
      simp only [normalForm, NormalForm.depth]
      omega

theorem depth_eq (q : Expr) (inherited : Bool) : q.depth = (q.normalForm inherited).depth := by
  rw [depth, deepest_cons q inherited, deepest]
  omega

/-! ### The walk

A walk visits the events of the normal form in order. The pieces that it collects are those that the
events give one by one, up to the first fault. -/

section Walk

theorem walk_eq {m : Type → Type _} [Monad m] (q : Expr) (visit : Event → m Unit) :
    q.walk visit = forM ((q.normalForm false).events 0) visit := by
  rw [walk_eq_forM, events_eq]

variable (write : Event → Except Error (List String))

/-- The pieces that events give, in order. -/
def emit (events : List Event) : Except Error (List String) :=
  List.flatten <$> events.mapM write

theorem emit_nil : emit write [] = .ok [] := rfl

theorem emit_append (before after : List Event) :
    emit write (before ++ after) = do
      let first ← emit write before
      let second ← emit write after
      return first ++ second := by
  simp [emit, List.mapM_append, monad_norm]

theorem emit_cons (event : Event) (after : List Event) :
    emit write (event :: after) = do
      let first ← write event
      let second ← emit write after
      return first ++ second := by
  simp [emit, List.mapM_cons, monad_norm]

/-- What a collecting walk does at an event. -/
def gather (event : Event) : StateT (Array String) (Except Error) Unit := do
  let pieces ← write event
  modify fun (written : Array String) => written ++ pieces

theorem run_forM_gather (events : List Event) (written : Array String) :
    (forM events (gather write)).run written = do
      let pieces ← emit write events
      return ((), written ++ pieces) := by
  induction events generalizing written with
  | nil => rfl
  | cons event rest ih =>
      have hassoc (first second : List String) :
          written ++ first ++ second = written ++ (first ++ second) :=
        Array.ext' (by simp)
      simp [gather, emit_cons, ih, hassoc, monad_norm]

theorem collect_eq (q : Expr) : q.collect write = emit write ((q.normalForm false).events 0) := by
  have hcollect : q.collect write =
      (q.walk (gather write)).run #[] >>= fun result => pure result.2.toList := rfl
  rw [hcollect, walk_eq, run_forM_gather]
  simp

end Walk

end Expr

end SearchFilter
