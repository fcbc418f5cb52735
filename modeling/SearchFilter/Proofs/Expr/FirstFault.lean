import SearchFilter.Proofs.Expr.Entries
import SearchFilter.Proofs.Expr.TreeText

/-!
# The first fault of a filter

Nothing can go wrong with a filter but its entries. Each text is written along the walk and stops at
the first entry that has no condition, and the tree is found by a recursion of its own. They all meet
the entries in one order, so a filter is refused by all of them with one fault or by none. Neither
flags nor connectives have a say in it.
-/

namespace SearchFilter

/-- The fault of the first entry that has no condition. -/
def firstFault? (entries : List Entry) : Option Error :=
  entries.findSome? fun entry => faultOf entry.condition

theorem firstFault?_append (before after : List Entry) :
    firstFault? (before ++ after) = (firstFault? before).or (firstFault? after) :=
  List.findSome?_append

theorem firstFault?_eq_none_iff {entries : List Entry} :
    firstFault? entries = none ↔
      ∀ entry ∈ entries, ∃ c, Condition.parse entry.key entry.value = .ok c := by
  rw [firstFault?, List.findSome?_eq_none_iff]
  exact forall₂_congr fun entry _ => faultOf_eq_none_iff

theorem firstFault?_eq_some_iff {entries : List Entry} {fault : Error} :
    firstFault? entries = some fault ↔
      ∃ before entry after, entries = before ++ entry :: after ∧
        Condition.parse entry.key entry.value = .error fault ∧
        ∀ earlier ∈ before, ∃ c, Condition.parse earlier.key earlier.value = .ok c := by
  simp only [firstFault?, List.findSome?_eq_some_iff, faultOf_eq_some_iff, faultOf_eq_none_iff,
    Entry.condition]

namespace Expr

/-- The entries that an event has written. -/
def Event.entries : Event → List Entry
  | leaf entries _ _ => entries
  | enter _ | between _ _ | exit _ => []

theorem flatMap_entries_events (q : Expr) (inherited : Bool) (level : Nat) :
    (q.events inherited level).flatMap Event.entries = q.entries := by
  induction q generalizing inherited level with
  | leaf negated entries => simp [events, Event.entries, Expr.entries]
  | node negated op left right ihLeft ihRight =>
      simp [events, Event.entries, Expr.entries, ihLeft, ihRight]

theorem faultOf_renderLeaf (entries : List Entry) (negate : Bool) :
    faultOf (renderLeaf entries negate) = firstFault? entries := by
  rw [renderLeaf, bind_pure_comp, faultOf_map, faultOf_mapM, firstFault?]

/-! ### The texts

A writer that fails at an event just as the entries of the event do fails along the walk just as the
entries of the filter do. -/

section Writers

variable {write : Event → Except Error (List String)}

theorem faultOf_emit (hwrite : ∀ event, faultOf (write event) = firstFault? event.entries)
    (events : List Event) :
    faultOf (emit write events) = firstFault? (events.flatMap Event.entries) := by
  rw [emit, faultOf_map, faultOf_mapM]
  induction events with
  | nil => rfl
  | cons event rest ih =>
      rw [List.findSome?_cons, List.flatMap_cons, firstFault?_append, ← ih, hwrite]
      cases firstFault? event.entries <;> rfl

theorem faultOf_collect (hwrite : ∀ event, faultOf (write event) = firstFault? event.entries)
    (q : Expr) : faultOf (q.collect write) = firstFault? q.entries := by
  rw [collect_eq, ← events_eq, faultOf_emit hwrite, flatMap_entries_events]

end Writers

theorem faultOf_renderEvent (event : Event) :
    faultOf (renderEvent event) = firstFault? event.entries := by
  cases event with
  | enter level | between op level | exit level => rfl
  | leaf entries negate level =>
      rw [renderEvent, bind_pure_comp, faultOf_map, faultOf_renderLeaf, Event.entries]

theorem faultOf_prettifyEvent (event : Event) :
    faultOf (prettifyEvent event) = firstFault? event.entries := by
  cases event with
  | enter level | between op level | exit level => rfl
  | leaf entries negate level =>
      rw [prettifyEvent, bind_pure_comp, faultOf_map, faultOf_renderLeaf, Event.entries]

theorem faultOf_explainEvent (event : Event) :
    faultOf (explainEvent event) = firstFault? event.entries := by
  cases event with
  | enter level | between op level | exit level => rfl
  | leaf entries negate level =>
      rw [explainEvent, bind_pure_comp, faultOf_map, faultOf_mapM, Event.entries, firstFault?]

theorem faultOf_render (q : Expr) : faultOf q.render = firstFault? q.entries := by
  rw [render, faultOf_map, faultOf_collect faultOf_renderEvent]

/-- The text is the tree on one line, so the one cannot fail without the other. -/
theorem faultOf_renderTree {q : Expr} {max : Nat} (hshallow : q.depth ≤ max) :
    faultOf (q.renderTree max) = firstFault? q.entries := by
  rw [renderTree, if_neg (Nat.not_lt.mpr hshallow), ← faultOf_render, render_eq, faultOf_map]

/-! ### All views -/

/-- Every way to write the filter fails with this fault, or none fails if there is none. -/
structure ViewsFail (q : Expr) (fault : Option Error) : Prop where
  render : faultOf q.render = fault
  prettify : faultOf q.prettify = fault
  explain : faultOf q.explain = fault
  renderTree : ∀ max, q.depth ≤ max → faultOf (q.renderTree max) = fault

theorem viewsFail (q : Expr) : ViewsFail q (firstFault? q.entries) where
  render := faultOf_render q
  prettify := by rw [prettify, faultOf_map, faultOf_collect faultOf_prettifyEvent]
  explain := by rw [explain, faultOf_map, faultOf_collect faultOf_explainEvent]
  renderTree _ hshallow := faultOf_renderTree hshallow

/-- The filters differ in nothing but flags and connectives. -/
inductive Relabelled : Expr → Expr → Prop where
  | leaf (negated negated' : Bool) (entries : List Entry) :
      Relabelled (leaf negated entries) (leaf negated' entries)
  | node (negated negated' : Bool) (op op' : Connective) {left left' right right' : Expr} :
      Relabelled left left' → Relabelled right right' →
      Relabelled (node negated op left right) (node negated' op' left' right')

theorem Relabelled.entries_eq {q q' : Expr} (h : Relabelled q q') : q'.entries = q.entries := by
  induction h with
  | leaf negated negated' entries => rfl
  | node negated negated' op op' _ _ ihLeft ihRight =>
      rw [Expr.entries, ihLeft, ihRight, Expr.entries]

/-- **The first fault.** All views of a filter succeed if each of its entries has a condition.
Otherwise they all report the fault of the first entry that has none, from left to right. Flags and
connectives change nothing about that. -/
theorem views_report_first_fault (q : Expr) :
    ViewsFail q (firstFault? q.entries) ∧
    (firstFault? q.entries = none ↔
      ∀ entry ∈ q.entries, ∃ c, Condition.parse entry.key entry.value = .ok c) ∧
    (∀ fault, firstFault? q.entries = some fault ↔
      ∃ before entry after, q.entries = before ++ entry :: after ∧
        Condition.parse entry.key entry.value = .error fault ∧
        ∀ earlier ∈ before, ∃ c, Condition.parse earlier.key earlier.value = .ok c) ∧
    ∀ q', Relabelled q q' → ViewsFail q' (firstFault? q.entries) := by
  refine ⟨viewsFail q, firstFault?_eq_none_iff, fun fault => firstFault?_eq_some_iff, ?_⟩
  intro q' hrelabelled
  rw [← hrelabelled.entries_eq]
  exact viewsFail q'

/-- Of two faults the one further left is reported, under any sign. -/
example :
    let q := ((single "year__after" .none).and (single "genre" (.list []))).negate
    q.explain = .error (.invalidOperator "year__after" "after") := by
  cbv

end Expr

end SearchFilter
