import SearchFilter.Proofs.Expr.Built
import SearchFilter.Proofs.Expr.NormalForm

/-!
# De Morgan's laws

A negated filter and the dual filter of its negated operands are different trees, of which each is
written just as the other, faults included. The reason is that they have one normal form. Having one
normal form is kept by every operation on filters, so the two stay interchangeable in whatever is
built from them.
-/

namespace SearchFilter.Expr

/-- Two filters that cannot be told apart by how they are written. -/
structure SameViews (q q' : Expr) : Prop where
  depth : q.depth = q'.depth
  render : q.render = q'.render
  prettify : q.prettify = q'.prettify
  explain : q.explain = q'.explain
  renderTree : ∀ max, q.renderTree max = q'.renderTree max

/-- One operation around a filter. -/
inductive Frame where
  | combineLeft (op : Connective) (left : Expr)
  | combineRight (op : Connective) (right : Expr)
  | negate
  | addEntry (entry : Entry)

def Frame.apply (q : Expr) : Frame → Expr
  | combineLeft op left => left.combine op q
  | combineRight op right => q.combine op right
  | negate => q.negate
  | addEntry entry => q.addEntry entry

/-- The filter that the operations around `q` give, the innermost one first. -/
def fill (context : List Frame) (q : Expr) : Expr :=
  context.foldl Frame.apply q

/-- The filters have one normal form. -/
def Alike (q q' : Expr) : Prop :=
  q.normalForm false = q'.normalForm false

namespace Alike

variable {q q' : Expr}

theorem normalForm_eq (h : Alike q q') (inherited : Bool) :
    q.normalForm inherited = q'.normalForm inherited := by
  cases inherited with
  | false => exact h
  | true =>
      have hdual := congrArg NormalForm.dual h
      rwa [← normalForm_not, ← normalForm_not] at hdual

theorem isEmpty_eq (h : Alike q q') : q.isEmpty = q'.isEmpty := by
  cases q <;> cases q' <;> simp_all [Alike, normalForm, isEmpty]

theorem negate (h : Alike q q') : Alike q.negate q'.negate := by
  rw [Alike, normalForm_negate, normalForm_negate]
  exact h.normalForm_eq true

theorem combine {p p' : Expr} (op : Connective) (hp : Alike p p') (hq : Alike q q') :
    Alike (p.combine op q) (p'.combine op q') := by
  unfold Expr.combine
  rw [← hp.isEmpty_eq, ← hq.isEmpty_eq]
  split_ifs
  · exact hp
  · exact hq
  · rw [Alike, normalForm, normalForm, hp.normalForm_eq, hq.normalForm_eq]

theorem addEntry (entry : Entry) (h : Alike q q') : Alike (q.addEntry entry) (q'.addEntry entry) := by
  cases q with
  | leaf negated entries =>
      cases q' with
      | leaf negated' entries' =>
          obtain ⟨rfl, rfl⟩ : negated = negated' ∧ entries = entries' := by
            simpa [Alike, normalForm] using h
          rfl
      | node negated' op' left' right' => cases h
  | node negated op left right =>
      cases q' with
      | leaf negated' entries' => cases h
      | node negated' op' left' right' =>
          have hentry : Alike (leaf false [entry]) (leaf false [entry]) := rfl
          exact combine .and h hentry

theorem apply (frame : Frame) (h : Alike q q') : Alike (frame.apply q) (frame.apply q') := by
  cases frame with
  | combineLeft op left => exact combine op rfl h
  | combineRight op right => exact combine op h rfl
  | negate => exact h.negate
  | addEntry entry => exact h.addEntry entry

theorem fill (context : List Frame) (h : Alike q q') : Alike (fill context q) (fill context q') := by
  induction context generalizing q q' with
  | nil => exact h
  | cons frame rest ih => exact ih (h.apply frame)

theorem sameViews (h : Alike q q') : SameViews q q' where
  depth := by rw [depth_eq q false, depth_eq q' false, h.normalForm_eq]
  render := by rw [render, render, collect_eq, collect_eq, h.normalForm_eq]
  prettify := by rw [prettify, prettify, collect_eq, collect_eq, h.normalForm_eq]
  explain := by rw [explain, explain, collect_eq, collect_eq, h.normalForm_eq]
  renderTree max := by
    rw [renderTree, renderTree, depth_eq q false, depth_eq q' false, treeFrom_eq, treeFrom_eq,
      h.normalForm_eq]

end Alike

/-- Where an operand is empty, both sides are the other operand with its flag flipped. -/
theorem alike_deMorgan (op : Connective) (a b : Expr) :
    Alike (a.combine op b).negate (a.negate.combine op.dual b.negate) := by
  unfold combine
  rw [isEmpty_negate, isEmpty_negate]
  split_ifs
  · rfl
  · rfl
  · rw [Alike, normalForm_negate, normalForm, normalForm, normalForm_negate, normalForm_negate]
    rfl

/-- **De Morgan's laws and double negation.** No view tells a negated filter from the dual filter of
its negated operands, alone or in any context. Two negations give back the filter itself. -/
theorem deMorgan_in_every_context (context : List Frame) (a b : Expr) :
    SameViews (fill context (a.and b).negate) (fill context (a.negate.or b.negate)) ∧
    SameViews (fill context (a.or b).negate) (fill context (a.negate.and b.negate)) ∧
    a.negate.negate = a := by
  refine ⟨?_, ?_, negate_negate a⟩
  · have h : Alike (a.and b).negate (a.negate.or b.negate) := alike_deMorgan .and a b
    exact (h.fill context).sameViews
  · have h : Alike (a.or b).negate (a.negate.and b.negate) := alike_deMorgan .or a b
    exact (h.fill context).sameViews

end SearchFilter.Expr
