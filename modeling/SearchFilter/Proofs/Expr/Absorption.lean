import SearchFilter.Proofs.Expr.Built
import SearchFilter.Proofs.Expr.LeafText
import SearchFilter.Proofs.Expr.TreeText

/-!
# Empty operands

An empty leaf is the unit of composition under either flag, so it never becomes an operand of a
node, and only a filter that is an empty leaf itself has an empty text. The second half rests on the
conditions: one is never written as nothing, since there is a space before its operator even if its
field and its operand are empty.
-/

namespace SearchFilter

namespace Expr

def EmptyLeaf (q : Expr) : Prop :=
  ∃ negated, q = leaf negated []

/-- The join gives back an operand as it is exactly if the other one is an empty leaf, and the left
one if both are. -/
structure Absorbs (join : Expr → Expr → Expr) : Prop where
  left : ∀ a b, join a b = a ↔ b.EmptyLeaf
  right : ∀ a b, join a b = b ↔ a.EmptyLeaf ∧ (b.EmptyLeaf → a = b)

theorem size_lt_size_node (negated : Bool) (op : Connective) (left right : Expr) :
    left.size < (node negated op left right).size ∧
      right.size < (node negated op left right).size := by
  have hleft := left.size_pos
  have hright := right.size_pos
  rw [size]
  omega

theorem absorbs_combine (op : Connective) : Absorbs (combine op) where
  left a b := by
    rw [EmptyLeaf, ← isEmpty_eq_true_iff, combine]
    split_ifs with hb ha
    · simp [hb]
    · simp only [hb]
      constructor
      · rintro rfl
        exact absurd ha hb
      · exact fun h => absurd h Bool.false_ne_true
    · simp only [hb]
      constructor
      · intro h
        exact absurd (congrArg size h) (size_lt_size_node false op a b).1.ne'
      · exact fun h => absurd h Bool.false_ne_true
  right a b := by
    rw [EmptyLeaf, EmptyLeaf, ← isEmpty_eq_true_iff, ← isEmpty_eq_true_iff, combine]
    split_ifs with hb ha
    · constructor
      · rintro rfl
        exact ⟨hb, fun _ => rfl⟩
      · exact fun h => h.2 hb
    · exact ⟨fun _ => ⟨ha, fun h => absurd h hb⟩, fun _ => rfl⟩
    · constructor
      · intro h
        exact absurd (congrArg size h) (size_lt_size_node false op a b).2.ne'
      · exact fun h => absurd h.1 ha

/-! ### The text -/

theorem renderLeaf_eq_empty_iff {entries : List Entry} {negate : Bool} {text : String}
    (htext : renderLeaf entries negate = .ok text) : text = "" ↔ entries = [] := by
  obtain ⟨conditions, hparse, -⟩ := bind_eq_ok_iff.mp htext
  have hchars := toList_of_renderLeaf hparse htext
  rw [← String.toList_eq_nil_iff, hchars]
  cases entries with
  | nil =>
      obtain rfl := Except.ok.inj hparse
      simp
  | cons entry rest =>
      obtain ⟨c, cs, -, -, rfl⟩ := mapM_cons_eq_ok_iff.mp hparse
      have hne := (c.clause negate).text_ne_nil
      exact iff_of_false (intercalate_ne_nil hne _) (List.cons_ne_nil entry rest)

theorem flatten_eq_empty_iff {q : Expr} {inherited : Bool} {tree : FilterTree}
    (h : q.treeFrom inherited = .ok tree) : tree.flatten = "" ↔ q.EmptyLeaf := by
  cases q with
  | leaf negated entries =>
      obtain ⟨text, htext, rfl⟩ := treeFrom_leaf_eq_ok h
      rw [FilterTree.flatten, renderLeaf_eq_empty_iff htext]
      simp [EmptyLeaf]
  | node negated op left right =>
      obtain ⟨leftTree, rightTree, -, -, rfl⟩ := treeFrom_node_eq_ok h
      simp [FilterTree.flatten, EmptyLeaf]

theorem operands_ne_empty {q : Expr} {inherited : Bool} {tree : FilterTree}
    (hbelow : q.NoEmptyOperand) (h : q.treeFrom inherited = .ok tree) (path : List Side)
    {op : Connective} {left right : FilterTree}
    (hgroup : tree.at? path = some (.group op left right)) :
    left.flatten ≠ "" ∧ right.flatten ≠ "" := by
  induction q generalizing inherited tree path with
  | leaf negated entries =>
      obtain ⟨text, -, rfl⟩ := treeFrom_leaf_eq_ok h
      cases path <;> cases hgroup
  | node negated op' leftExpr rightExpr ihLeft ihRight =>
      obtain ⟨leftTree, rightTree, hleft, hright, rfl⟩ := treeFrom_node_eq_ok h
      obtain ⟨⟨hleftNe, hrightNe⟩, hleftBelow, hrightBelow⟩ := hbelow
      cases path with
      | nil =>
          cases hgroup
          rw [ne_eq, ne_eq, flatten_eq_empty_iff hleft, flatten_eq_empty_iff hright, EmptyLeaf,
            EmptyLeaf, ← isEmpty_eq_true_iff, ← isEmpty_eq_true_iff, hleftNe, hrightNe]
          exact ⟨Bool.false_ne_true, Bool.false_ne_true⟩
      | cons side path =>
          cases side with
          | left => exact ihLeft hleftBelow hleft path hgroup
          | right => exact ihRight hrightBelow hright path hgroup

/-- **Empty operands are absorbed.** No node of a filter that can be built has an empty operand. So
its text is empty only if the filter is an empty leaf, and the text is that of a tree in which no
group has an empty operand between its brackets. -/
theorem built_has_no_empty_operand :
    Absorbs Expr.and ∧ Absorbs Expr.or ∧
    ∀ q : Expr, Built q → q.NoEmptyOperand ∧
      ∀ text, q.render = .ok text → (text = "" ↔ q.EmptyLeaf) ∧
        ∃ tree, q.renderTree q.depth = .ok tree ∧ tree.flatten = text ∧
          ∀ path op left right, tree.at? path = some (.group op left right) →
            left.flatten ≠ "" ∧ right.flatten ≠ "" := by
  refine ⟨absorbs_combine .and, absorbs_combine .or, ?_⟩
  intro q hbuilt
  refine ⟨hbuilt.noEmptyOperand, ?_⟩
  intro text htext
  rw [render_eq] at htext
  obtain ⟨tree, htree, rfl⟩ := map_eq_ok_iff.mp htext
  refine ⟨flatten_eq_empty_iff htree, tree, ?_, rfl, ?_⟩
  · rw [renderTree, if_neg (Nat.lt_irrefl q.depth), htree]
  · intro path op left right hgroup
    exact operands_ne_empty hbuilt.noEmptyOperand htree path hgroup

theorem built_has_no_empty_operand_folded :
    let q := (((empty.negate.or (single "" (.scalar (.string "")))).and
      (ofEntries [⟨"", .scalar (.string "")⟩, ⟨"__exists", .none⟩])).negate).or empty.negate
    let text := "( != ) OR ( !=  AND  NOT EXISTS)"
    (Built q ∧ q.render = .ok text) ∧ q.NoEmptyOperand ∧ (text = "" ↔ q.EmptyLeaf) := by
  intro q text
  have hbuilt : Built q :=
    .or (.negate (.and (.or (.negate .empty) (.single _ _)) (.ofEntries _))) (.negate .empty)
  have htext : q.render = .ok text := by cbv
  have h := built_has_no_empty_operand.2.2 q hbuilt
  exact ⟨⟨hbuilt, htext⟩, h.1, (h.2 text htext).1⟩

end Expr

end SearchFilter
