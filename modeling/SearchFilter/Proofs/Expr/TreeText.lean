import SearchFilter.Proofs.Expr.NormalForm

/-!
# The tree and the text

A filter is written twice, as a tree by recursion and as a text along the walk, each with negation
logic of its own. Both read the normal form, so the text is the tree with its groups put between
brackets. The place of a node or a leaf is a path from the root, and what the tree has there depends
on the flags along that path only through their number being even or odd.
-/

namespace SearchFilter

/-- One step down from a node. -/
inductive Side where
  | left
  | right
  deriving DecidableEq, Repr

namespace FilterTree

/-- The tree on one line. -/
def flatten : FilterTree → String
  | leaf text => text
  | group op left right =>
    "(" ++ left.flatten ++ ") " ++ op.token ++ " (" ++ right.flatten ++ ")"

def at? : FilterTree → List Side → Option FilterTree
  | tree, [] => some tree
  | leaf _, _ :: _ => none
  | group _ left _, .left :: path => left.at? path
  | group _ _ right, .right :: path => right.at? path

end FilterTree

namespace Expr

def at? : Expr → List Side → Option Expr
  | q, [] => some q
  | leaf .., _ :: _ => none
  | node _ _ left _, .left :: path => left.at? path
  | node _ _ _ right, .right :: path => right.at? path

/-- The filters along a path, from the whole filter to the one that the path leads to. -/
def along : Expr → List Side → List Expr
  | q, [] => [q]
  | leaf negated entries, _ :: _ => [leaf negated entries]
  | node negated op left right, .left :: path => node negated op left right :: left.along path
  | node negated op left right, .right :: path => node negated op left right :: right.along path

/-- How many filters along a path are negated. -/
def negations (q : Expr) (path : List Side) : Nat :=
  (q.along path).countP isNegated

/-- What the tree has in the place of a filter whose sign is negative if `odd` holds. -/
inductive Mirrored (odd : Bool) : Option Expr → Option FilterTree → Prop where
  | nothing : Mirrored odd none none
  | leaf {negated : Bool} {entries : List Entry} {text : String} :
      renderLeaf entries odd = .ok text →
      Mirrored odd (some (.leaf negated entries)) (some (.leaf text))
  | group {negated : Bool} {op : Connective} {left right : Expr} {leftTree rightTree : FilterTree} :
      Mirrored odd (some (.node negated op left right))
        (some (.group (if odd then op.dual else op) leftTree rightTree))

theorem bodd_countP_cons (q : Expr) (rest : List Expr) :
    ((q :: rest).countP isNegated).bodd = (q.isNegated ^^ (rest.countP isNegated).bodd) := by
  rw [List.countP_cons, Nat.bodd_add, Bool.xor_comm]
  cases q.isNegated <;> rfl

theorem bodd_negations_nil (q : Expr) : (q.negations []).bodd = q.isNegated := by
  have halong : q.along [] = [q] := by cases q <;> rfl
  rw [negations, halong, bodd_countP_cons]
  simp

theorem treeFrom_leaf_eq_ok {inherited negated : Bool} {entries : List Entry} {tree : FilterTree}
    (h : (leaf negated entries).treeFrom inherited = .ok tree) :
    ∃ text, renderLeaf entries (inherited ^^ negated) = .ok text ∧ tree = .leaf text := by
  rw [treeFrom] at h
  obtain ⟨text, htext, htree⟩ := bind_eq_ok_iff.mp h
  exact ⟨text, htext, (Except.ok.inj htree).symm⟩

theorem treeFrom_node_eq_ok {inherited negated : Bool} {op : Connective} {left right : Expr}
    {tree : FilterTree} (h : (node negated op left right).treeFrom inherited = .ok tree) :
    ∃ leftTree rightTree, left.treeFrom (inherited ^^ negated) = .ok leftTree ∧
      right.treeFrom (inherited ^^ negated) = .ok rightTree ∧
      tree = .group (op.effective (inherited ^^ negated)) leftTree rightTree := by
  rw [treeFrom] at h
  obtain ⟨leftTree, hleft, h⟩ := bind_eq_ok_iff.mp h
  obtain ⟨rightTree, hright, h⟩ := bind_eq_ok_iff.mp h
  exact ⟨leftTree, rightTree, hleft, hright, (Except.ok.inj h).symm⟩

theorem mirrored_of_treeFrom {q : Expr} {inherited : Bool} {tree : FilterTree}
    (h : q.treeFrom inherited = .ok tree) (path : List Side) :
    Mirrored (inherited ^^ (q.negations path).bodd) (q.at? path) (tree.at? path) := by
  induction q generalizing inherited tree path with
  | leaf negated entries =>
      obtain ⟨text, htext, rfl⟩ := treeFrom_leaf_eq_ok h
      cases path with
      | nil =>
          rw [bodd_negations_nil]
          exact .leaf htext
      | cons side path => exact .nothing
  | node negated op left right ihLeft ihRight =>
      obtain ⟨leftTree, rightTree, hleft, hright, rfl⟩ := treeFrom_node_eq_ok h
      cases path with
      | nil =>
          rw [bodd_negations_nil]
          exact .group
      | cons side path =>
          -- The root's flag joins the inherited sign, and the rest of the path is a child's own.
          cases side with
          | left =>
              rw [negations, along, bodd_countP_cons, ← Bool.xor_assoc]
              exact ihLeft hleft path
          | right =>
              rw [negations, along, bodd_countP_cons, ← Bool.xor_assoc]
              exact ihRight hright path

end Expr

namespace NormalForm

open SearchFilter.Expr

theorem join_emit_events (form : NormalForm) (level : Nat) :
    String.join <$> emit renderEvent (form.events level) = FilterTree.flatten <$> form.tree := by
  induction form generalizing level with
  | leaf negate entries =>
      simp [events, emit_cons, emit_nil, renderEvent, tree, FilterTree.flatten, monad_norm]
  | group op left right ihLeft ihRight =>
      calc String.join <$> emit renderEvent ((group op left right).events level)
          = (do
              let left ← String.join <$> emit renderEvent (left.events (level + 1))
              let right ← String.join <$> emit renderEvent (right.events (level + 1))
              return "(" ++ left ++ ") " ++ op.token ++ " (" ++ right ++ ")") := by
            simp [events, emit_append, emit_cons, emit_nil, renderEvent, monad_norm,
              String.append_assoc]
        _ = (do
              let left ← FilterTree.flatten <$> left.tree
              let right ← FilterTree.flatten <$> right.tree
              return "(" ++ left ++ ") " ++ op.token ++ " (" ++ right ++ ")") := by
            rw [ihLeft, ihRight]
        _ = FilterTree.flatten <$> (group op left right).tree := by
            simp [tree, FilterTree.flatten, monad_norm]

end NormalForm

namespace Expr

theorem render_eq (q : Expr) : q.render = FilterTree.flatten <$> q.treeFrom false := by
  rw [render, collect_eq, NormalForm.join_emit_events, treeFrom_eq]

/-- **The tree and the text agree.** A filter that nests too deep has no tree, whatever else is
wrong with it. Any other filter that has a text has a tree of its own shape, in which the flags on
the way from the root decide what stands at each place, and the text is that tree on one line. -/
theorem renderTree_agrees_with_render (q : Expr) (max : Nat) :
    (max < q.depth → q.renderTree max = .error (.depthExceeded q.depth max)) ∧
    (q.depth ≤ max → ∀ text, q.render = .ok text →
      ∃ tree, q.renderTree max = .ok tree ∧
        (∀ path, Mirrored (q.negations path).bodd (q.at? path) (tree.at? path)) ∧
        tree.flatten = text) := by
  constructor
  · intro hdeep
    rw [renderTree, if_pos hdeep]
  · intro hshallow text htext
    rw [render_eq] at htext
    obtain ⟨tree, htree, hflatten⟩ := map_eq_ok_iff.mp htext
    refine ⟨tree, ?_, ?_, hflatten⟩
    · rw [renderTree, if_neg (Nat.not_lt.mpr hshallow), htree]
    · intro path
      simpa using mirrored_of_treeFrom htree path

theorem renderTree_agrees_with_render_negated :
    let q := ((single "a" (.scalar (.string "x"))).and (single "b__exists" .none).negate).negate
    q.renderTree 0 = .error (.depthExceeded 1 0) ∧
      ∃ tree, q.renderTree 1 = .ok tree ∧
        (∀ path, Mirrored (q.negations path).bodd (q.at? path) (tree.at? path)) ∧
        tree.flatten = "(a != x) OR (b EXISTS)" := by
  intro q
  have hdepth : q.depth = 1 := by cbv
  have htext : q.render = .ok "(a != x) OR (b EXISTS)" := by cbv
  have hdeep := (renderTree_agrees_with_render q 0).1 (by rw [hdepth]; decide)
  rw [hdepth] at hdeep
  exact ⟨hdeep, (renderTree_agrees_with_render q 1).2 (by rw [hdepth]) _ htext⟩

end Expr

end SearchFilter
