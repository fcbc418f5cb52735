import SearchFilter.Proofs.Expr.TreeText

/-!
# The walk as a traversal

A walk gives the events of the recursion to a visitor, one after the other. What the visitor does
with them is left open: it has a state of its own and may fail at any of them, and a note of the
events that it has been called on tells how far the walk has come. The events themselves are what a
reader expects of a tree: its leaves from left to right, and its nodes around them like brackets.
-/

namespace SearchFilter.Expr

/-! ### The visitor -/

/-- A visitor has a state of its own and may fail, and its state outlives a failure. -/
abbrev Visitor (σ ε : Type) := Event → ExceptT ε (StateM σ) Unit

section Visitor

variable {σ ε : Type}

theorem run_bind_of_ok {α β : Type} {x : ExceptT ε (StateM σ) α} {a : α} {s s' : σ}
    (f : α → ExceptT ε (StateM σ) β) (h : x.run.run s = (.ok a, s')) :
    (x >>= f).run.run s = (f a).run.run s' := by
  rw [ExceptT.run_bind, StateT.run_bind, h]
  rfl

theorem run_bind_of_error {α β : Type} {x : ExceptT ε (StateM σ) α} {failure : ε} {s s' : σ}
    (f : α → ExceptT ε (StateM σ) β) (h : x.run.run s = (.error failure, s')) :
    (x >>= f).run.run s = (.error failure, s') := by
  rw [ExceptT.run_bind, StateT.run_bind, h]
  rfl

variable (visit : Visitor σ ε)

/-- The visitor with a note of the events that it has been called on. -/
def noted : Visitor (σ × List Event) ε := fun event => ExceptT.mk fun (s, called) =>
  let (answer, s') := (visit event).run.run s
  (answer, s', called ++ [event])

/-- The visitor goes through the events without failing, from one state to another. -/
inductive Passes : σ → List Event → σ → Prop where
  | nil (s : σ) : Passes s [] s
  | cons {s s' s'' : σ} {event : Event} {rest : List Event} :
      (visit event).run.run s = (.ok (), s') → Passes s' rest s'' → Passes s (event :: rest) s''

/-- How it ends when the visitor is to be called on events: on which of them it has been called, the
answer and its state. -/
inductive Ends (s : σ) (events : List Event) : List Event → Except ε Unit → σ → Prop where
  | finished {s' : σ} : Passes visit s events s' → Ends s events events (.ok ()) s'
  | failed {before after : List Event} {event : Event} {failure : ε} {s' s'' : σ} :
      events = before ++ event :: after → Passes visit s before s' →
      (visit event).run.run s' = (.error failure, s'') →
      Ends s events (before ++ [event]) (.error failure) s''

variable {visit}

theorem run_noted {event : Event} {called : List Event} {answer : Except ε Unit} {s s' : σ}
    (h : (visit event).run.run s = (answer, s')) :
    (noted visit event).run.run (s, called) = (answer, s', called ++ [event]) := by
  change (let (answer, s') := (visit event).run.run s; (answer, s', called ++ [event])) = _
  rw [h]

theorem Ends.cons {event : Event} {rest called : List Event} {answer : Except ε Unit} {s s' s'' : σ}
    (hevent : (visit event).run.run s = (.ok (), s')) (h : Ends visit s' rest called answer s'') :
    Ends visit s (event :: rest) (event :: called) answer s'' := by
  cases h with
  | finished hpasses => exact .finished (.cons hevent hpasses)
  | failed hrest hpasses hfailure =>
      exact .failed (congrArg (event :: ·) hrest) (.cons hevent hpasses) hfailure

variable (visit)

theorem forM_ends (events earlier : List Event) (s : σ) :
    ∃ called answer s', Ends visit s events called answer s' ∧
      (forM events visit).run.run s = (answer, s') ∧
      (forM events (noted visit)).run.run (s, earlier) = (answer, s', earlier ++ called) := by
  induction events generalizing s earlier with
  | nil => exact ⟨[], .ok (), s, .finished (.nil s), rfl, by rw [List.append_nil]; rfl⟩
  | cons event rest ih =>
      rw [List.forM_cons, List.forM_cons]
      rcases hevent : (visit event).run.run s with ⟨failure | _, s'⟩
      · exact ⟨[event], .error failure, s', .failed (List.nil_append _).symm (.nil s) hevent,
          run_bind_of_error _ hevent, run_bind_of_error _ (run_noted hevent)⟩
      · obtain ⟨called, answer, s'', hends, hrun, hnoted⟩ := ih (earlier ++ [event]) s'
        rw [run_bind_of_ok _ hevent, run_bind_of_ok _ (run_noted hevent)]
        rw [List.append_assoc] at hnoted
        exact ⟨event :: called, answer, s'', hends.cons hevent, hrun, hnoted⟩

end Visitor

/-! ### The leaves -/

/-- The places of the leaves, from left to right. -/
def leafPlaces : Expr → List (List Side)
  | leaf .. => [[]]
  | node _ _ left right =>
    left.leafPlaces.map (.left :: ·) ++ right.leafPlaces.map (.right :: ·)

def Event.isLeaf : Event → Bool
  | leaf .. => true
  | _ => false

/-- The event is that of the leaf in a place. The flags on the way and the inherited sign make its
sign, and the way is as long as its level tells. -/
inductive Reports (q : Expr) (inherited : Bool) (level : Nat) (path : List Side) :
    Event → Prop where
  | leaf {negated : Bool} {entries : List Entry} :
      q.at? path = some (.leaf negated entries) →
      Reports q inherited level path
        (.leaf entries (inherited ^^ (q.negations path).bodd) (level + path.length))

theorem mem_leafPlaces_iff {q : Expr} {path : List Side} :
    path ∈ q.leafPlaces ↔ ∃ negated entries, q.at? path = some (leaf negated entries) := by
  induction q generalizing path with
  | leaf negated entries =>
      cases path with
      | nil => simp [leafPlaces, at?]
      | cons side path => simp [leafPlaces, at?]
  | node negated op left right ihLeft ihRight =>
      match path with
      | [] => simp [leafPlaces, at?]
      | .left :: path => simp [leafPlaces, at?, ← ihLeft]
      | .right :: path => simp [leafPlaces, at?, ← ihRight]

theorem nodup_leafPlaces (q : Expr) : q.leafPlaces.Nodup := by
  induction q with
  | leaf negated entries => exact List.nodup_singleton []
  | node negated op left right ihLeft ihRight =>
      have hleft := ihLeft.map (List.cons_injective (a := .left))
      have hright := ihRight.map (List.cons_injective (a := .right))
      refine List.nodup_append'.mpr ⟨hleft, hright, ?_⟩
      -- Places on different sides differ in their first step.
      intro path hmemLeft hmemRight
      obtain ⟨inner, -, rfl⟩ := List.mem_map.mp hmemLeft
      obtain ⟨inner', -, hcons⟩ := List.mem_map.mp hmemRight
      cases hcons

/-- What an operand reports is reported of the node, one step further down. -/
theorem Reports.of_operand {q operand : Expr} {inherited : Bool} {level : Nat} {side : Side}
    {path : List Side} {event : Event}
    (h : Reports operand (inherited ^^ q.isNegated) (level + 1) path event)
    (hat : q.at? (side :: path) = operand.at? path)
    (halong : q.along (side :: path) = q :: operand.along path) :
    Reports q inherited level (side :: path) event := by
  obtain ⟨hleaf⟩ := h
  have hreport : Reports q inherited level (side :: path) _ := .leaf (hat.trans hleaf)
  have hlevel : level + (side :: path).length = level + 1 + path.length := by
    rw [List.length_cons]
    omega
  rwa [negations, halong, bodd_countP_cons, ← Bool.xor_assoc, hlevel] at hreport

theorem leaves_reported (q : Expr) (inherited : Bool) (level : Nat) :
    List.Forall₂ (Reports q inherited level) q.leafPlaces
      ((q.events inherited level).filter Event.isLeaf) := by
  induction q generalizing inherited level with
  | leaf negated entries =>
      have hreport : Reports (leaf negated entries) inherited level [] _ := .leaf rfl
      rw [bodd_negations_nil] at hreport
      exact .cons hreport .nil
  | node negated op left right ihLeft ihRight =>
      have hleaves : ((node negated op left right).events inherited level).filter Event.isLeaf =
          (left.events (inherited ^^ negated) (level + 1)).filter Event.isLeaf ++
            (right.events (inherited ^^ negated) (level + 1)).filter Event.isLeaf := by
        simp [events, Event.isLeaf]
      rw [hleaves]
      refine List.rel_append ?_ ?_
      · exact List.forall₂_map_left_iff.mpr ((ihLeft _ _).imp fun _ _ h => h.of_operand rfl rfl)
      · exact List.forall₂_map_left_iff.mpr ((ihRight _ _).imp fun _ _ h => h.of_operand rfl rfl)

/-! ### The nodes -/

/-- A node that has been entered and not yet left. -/
structure OpenNode where
  level : Nat
  /-- Its connective has been reported. -/
  joined : Bool

/-- The events close what they open and what is open before them, the innermost first. A node
reports its connective once and has one level in all that it reports, which is the number of nodes
around it, as the level of a leaf is. -/
def wellBracketed : List OpenNode → List Event → Bool
  | opened, [] => opened.isEmpty
  | opened, .leaf _ _ level :: rest => level == opened.length && wellBracketed opened rest
  | opened, .enter level :: rest =>
    level == opened.length && wellBracketed (⟨level, false⟩ :: opened) rest
  | ⟨level', false⟩ :: opened, .between _ level :: rest =>
    level == level' && wellBracketed (⟨level', true⟩ :: opened) rest
  | ⟨level', true⟩ :: opened, .exit level :: rest => level == level' && wellBracketed opened rest
  | _, _ => false

theorem wellBracketed_events (q : Expr) (inherited : Bool) (opened : List OpenNode)
    (rest : List Event) :
    wellBracketed opened (q.events inherited opened.length ++ rest) =
      wellBracketed opened rest := by
  induction q generalizing inherited opened rest with
  | leaf negated entries => simp [events, wellBracketed]
  | node negated op left right ihLeft ihRight =>
      have hleft := ihLeft (inherited ^^ negated) (⟨opened.length, false⟩ :: opened)
      have hright := ihRight (inherited ^^ negated) (⟨opened.length, true⟩ :: opened)
      rw [List.length_cons] at hleft hright
      simp [events, wellBracketed, hleft, hright]

/-- **The walk is the recursion from left to right.** The loop reports the events of the recursion
and comes to an end, and at any time what it has reported and what is on its stack make up these
events. A visitor is called on all of them, or on those up to the first that it fails on, and then
the walk ends with that failure and with the state that the visitor has at that time. The events
have every leaf once, with its sign and level, and every node is left after it has been entered. -/
theorem walk_is_inorder_traversal (q : Expr) :
    (Reaches [.expr q false 0] (q.events false 0) [] ∧
      (q.events false 0).length = q.eventCount ∧
      ∀ before stack, Reaches [.expr q false 0] before stack →
        before ++ remaining stack = q.events false 0) ∧
    ((∀ (m : Type → Type) [Monad m] (visit : Event → m Unit),
        q.walk visit = forM (q.events false 0) visit) ∧
      ∀ (σ ε : Type) (visit : Visitor σ ε) (s : σ), ∃ called answer s',
        Ends visit s (q.events false 0) called answer s' ∧
        (q.walk visit).run.run s = (answer, s') ∧
        (q.walk (noted visit)).run.run (s, []) = (answer, s', called)) ∧
    (q.leafPlaces.Nodup ∧
      (∀ path, path ∈ q.leafPlaces ↔ ∃ negated entries, q.at? path = some (leaf negated entries)) ∧
      List.Forall₂ (Reports q false 0) q.leafPlaces ((q.events false 0).filter Event.isLeaf)) ∧
    wellBracketed [] (q.events false 0) = true := by
  have hstart : remaining [.expr q false 0] = q.events false 0 := List.flatMap_singleton _ _
  refine ⟨⟨?_, q.length_events false 0, ?_⟩, ⟨fun m _ => q.walk_eq_forM, ?_⟩,
    ⟨q.nodup_leafPlaces, fun _ => mem_leafPlaces_iff, q.leaves_reported false 0⟩, ?_⟩
  · rw [← hstart]
    exact reaches_nil _
  · intro before stack h
    rw [← hstart]
    exact h.append_remaining
  · intro σ ε visit s
    rw [walk_eq_forM, walk_eq_forM]
    exact forM_ends visit (q.events false 0) [] s
  · have hclosed := q.wellBracketed_events false [] []
    rwa [List.append_nil, List.length_nil] at hclosed

theorem walk_is_inorder_traversal_stopped :
    let q := ((present "a").and (present "b").negate).negate
    let visit : Visitor Nat String := fun event => do
      modify (· + 1)
      match event with
      | .between .. => throw "enough"
      | _ => pure ()
    let called : List Event := [.enter 0, .leaf [⟨"a__exists", .none⟩] true 1, .between .or 0]
    Ends visit 0 (q.events false 0) called (.error "enough") 3 ∧
      (q.walk visit).run.run 0 = (.error "enough", 3) ∧
      called ++ remaining [.expr (present "b").negate true 1, .exit 0] = q.events false 0 := by
  intro q visit called
  have hrun : (q.walk (noted visit)).run.run (0, []) = (.error "enough", 3, called) := by cbv
  have hreached : Reaches [.expr q false 0] called [.expr (present "b").negate true 1, .exit 0] :=
    .turn (.turn (.turn (.refl _)))
  obtain ⟨⟨-, -, hremaining⟩, ⟨-, hvisitor⟩, -, -⟩ := walk_is_inorder_traversal q
  obtain ⟨called', answer, s', hends, hwalk, hnoted⟩ := hvisitor Nat String visit 0
  rw [hrun] at hnoted
  obtain ⟨rfl, hended⟩ := Prod.mk.inj hnoted
  obtain ⟨rfl, rfl⟩ := Prod.mk.inj hended
  exact ⟨hends, hwalk, hremaining called _ hreached⟩

end SearchFilter.Expr
