import SearchFilter.Proofs.Expr.Built
import SearchFilter.Proofs.Expr.Readability

/-!
# Depth

The depth of a filter is found with a worklist, and it is what nests in all that is written from the
filter: the groups of its tree, the arrays of the tree's JSON and the brackets of its text. The
brackets are counted by reading the text from the left, so a leaf must not bring any of its own.
-/

namespace SearchFilter

/-! ### What nests -/

/-- How many groups stand in one another at most. -/
def FilterTree.nesting : FilterTree → Nat
  | leaf _ => 0
  | group _ left right => max left.nesting right.nesting + 1

namespace Json

mutual

/-- How many arrays stand in one another at most. -/
def arrayNesting : Json → Nat
  | array items => itemNesting items + 1
  | object members => memberNesting members
  | null | bool _ | int _ | double _ | string _ => 0

/-- The greatest nesting of arrays among items. -/
def itemNesting : List Json → Nat
  | [] => 0
  | item :: rest => max item.arrayNesting (itemNesting rest)

/-- The greatest nesting of arrays among the values of an object. -/
def memberNesting : List (String × Json) → Nat
  | [] => 0
  | (_, value) :: rest => max value.arrayNesting (memberNesting rest)

end

end Json

/-- How many brackets are open after a character. -/
def openAfter (opened : Nat) (c : Char) : Nat :=
  if c = '(' then opened + 1 else if c = ')' then opened - 1 else opened

/-- How many brackets are open at most while a text is read that begins with `opened` of them. -/
def nestingFrom (opened : Nat) : List Char → Nat
  | [] => opened
  | c :: rest => max opened (nestingFrom (openAfter opened c) rest)

/-- How many brackets of a text are open at once at most. -/
def bracketNesting (text : String) : Nat :=
  nestingFrom 0 text.toList

/-! ### Brackets -/

theorem le_nestingFrom (opened : Nat) (text : List Char) : opened ≤ nestingFrom opened text := by
  cases text with
  | nil => exact Nat.le_refl opened
  | cons c rest => exact Nat.le_max_left _ _

theorem nestingFrom_opening (opened : Nat) (rest : List Char) :
    nestingFrom opened ('(' :: rest) = nestingFrom (opened + 1) rest := by
  have hrest := le_nestingFrom (opened + 1) rest
  rw [nestingFrom, openAfter, if_pos rfl]
  omega

theorem nestingFrom_closing (opened : Nat) (rest : List Char) :
    nestingFrom (opened + 1) (')' :: rest) = max (opened + 1) (nestingFrom opened rest) := rfl

theorem nestingFrom_append {text : List Char} (hopening : '(' ∉ text) (hclosing : ')' ∉ text)
    (opened : Nat) (rest : List Char) :
    nestingFrom opened (text ++ rest) = nestingFrom opened rest := by
  induction text with
  | nil => rfl
  | cons c text ih =>
      rw [List.mem_cons, not_or] at hopening hclosing
      rw [List.cons_append, nestingFrom, openAfter, if_neg (Ne.symm hopening.1),
        if_neg (Ne.symm hclosing.1), ih hopening.2 hclosing.2]
      exact max_eq_right (le_nestingFrom opened rest)

namespace FilterTree

/-- The text of a tree adds its nesting to the brackets that are open before it, and leaves none of
its own open. -/
theorem nestingFrom_flatten {tree : FilterTree} (hleaves : tree.Leaves Unbracketed) (opened : Nat)
    (rest : List Char) :
    nestingFrom opened (tree.flatten.toList ++ rest) =
      max (opened + tree.nesting) (nestingFrom opened rest) := by
  induction tree generalizing opened rest with
  | leaf text =>
      have hrest := le_nestingFrom opened rest
      rw [flatten, nestingFrom_append hleaves.1 hleaves.2, nesting]
      omega
  | group op left right ihLeft ihRight =>
      have hbetween (rest : List Char) : nestingFrom opened
          (' ' :: (op.token.toList ++ ' ' :: '(' :: rest)) = nestingFrom (opened + 1) rest := by
        have hopening : '(' ∉ [' '] ++ op.token.toList ++ [' '] := by cases op <;> decide
        have hclosing : ')' ∉ [' '] ++ op.token.toList ++ [' '] := by cases op <;> decide
        have hword := nestingFrom_append hopening hclosing opened ('(' :: rest)
        rw [nestingFrom_opening] at hword
        simpa using hword
      simp only [toList_flatten_group, List.cons_append, List.append_assoc]
      -- Both operands are read with one bracket more open, and it is closed again after each.
      rw [nestingFrom_opening, ihLeft hleaves.1, nestingFrom_closing, hbetween, ihRight hleaves.2,
        List.nil_append, nestingFrom_closing, nesting]
      omega

theorem bracketNesting_flatten {tree : FilterTree} (hleaves : tree.Leaves Unbracketed) :
    bracketNesting tree.flatten = tree.nesting := by
  have hread := nestingFrom_flatten hleaves 0 []
  simpa [bracketNesting, nestingFrom] using hread

theorem arrayNesting_toJson (tree : FilterTree) : tree.toJson.arrayNesting = tree.nesting := by
  induction tree with
  | leaf text => rfl
  | group op left right ihLeft ihRight =>
      simp [toJson, Json.arrayNesting, Json.itemNesting, nesting, ihLeft, ihRight]

end FilterTree

theorem NormalForm.nesting_of_tree {form : NormalForm} {tree : FilterTree}
    (h : form.tree = .ok tree) : tree.nesting = form.depth := by
  induction form generalizing tree with
  | leaf negate entries =>
      obtain ⟨text, -, hleaf⟩ := bind_eq_ok_iff.mp h
      obtain rfl := Except.ok.inj hleaf
      rfl
  | group op left right ihLeft ihRight =>
      obtain ⟨leftTree, hleft, h⟩ := bind_eq_ok_iff.mp h
      obtain ⟨rightTree, hright, hgroup⟩ := bind_eq_ok_iff.mp h
      obtain rfl := Except.ok.inj hgroup
      rw [FilterTree.nesting, ihLeft hleft, ihRight hright, NormalForm.depth]

namespace Expr

/-! ### The worklist -/

theorem depth_leaf (negated : Bool) (entries : List Entry) : (leaf negated entries).depth = 0 := by
  rw [depth_eq _ false, normalForm, NormalForm.depth]

theorem depth_node (negated : Bool) (op : Connective) (left right : Expr) :
    (node negated op left right).depth = 1 + max left.depth right.depth := by
  rw [depth_eq _ false, normalForm, NormalForm.depth, ← depth_eq, ← depth_eq, Nat.add_comm]

theorem depth_negate (q : Expr) : q.negate.depth = q.depth := by
  rw [depth_eq q.negate false, normalForm_negate, ← depth_eq]

theorem depth_of_treeFrom {q : Expr} {inherited : Bool} {tree : FilterTree}
    (h : q.treeFrom inherited = .ok tree) : tree.nesting = q.depth := by
  rw [treeFrom_eq] at h
  rw [NormalForm.nesting_of_tree h, ← depth_eq]

/-- What joining two filters does to depth. -/
structure Deepens (join : Expr → Expr → Expr) : Prop where
  nonempty : ∀ a b, a.isEmpty = false → b.isEmpty = false →
    (join a b).depth = 1 + max a.depth b.depth
  empty_right : ∀ a b, b.isEmpty = true → join a b = a ∧ (join a b).depth = a.depth
  empty_left : ∀ a b, a.isEmpty = true → b.isEmpty = false →
    join a b = b ∧ (join a b).depth = b.depth

theorem deepens_combine (op : Connective) : Deepens (combine op) where
  nonempty a b ha hb := by rw [combine_of_nonempty ha hb, depth_node]
  empty_right a b hb := by
    rw [combine_of_empty_right hb]
    exact ⟨rfl, rfl⟩
  empty_left a b ha hb := by
    rw [combine_of_empty_left ha hb]
    exact ⟨rfl, rfl⟩

/-- **Depth is nesting.** The worklist finds no depth in a leaf and one more than that of the deeper
operand in a node. Negation leaves depth alone, and so does joining with an empty filter. If a
filter can be written, its depth is the nesting of groups in its tree, of arrays in the tree's JSON,
and of brackets in its text, unless a leaf has brackets of its own. -/
theorem depth_is_nesting_of_every_view :
    (∀ negated entries, (leaf negated entries).depth = 0) ∧
    (∀ negated op left right,
      (node negated op left right).depth = 1 + max left.depth right.depth) ∧
    (∀ q : Expr, q.negate.depth = q.depth) ∧
    (Deepens Expr.and ∧ Deepens Expr.or) ∧
    ∀ (q : Expr) (text : String), q.render = .ok text →
      ∃ tree, q.renderTree q.depth = .ok tree ∧ tree.nesting = q.depth ∧
        tree.toJson.arrayNesting = q.depth ∧
        (q.LeafTexts Unbracketed → bracketNesting text = q.depth) := by
  refine ⟨depth_leaf, depth_node, depth_negate, ⟨deepens_combine .and, deepens_combine .or⟩, ?_⟩
  intro q text htext
  rw [render_eq] at htext
  obtain ⟨tree, htree, rfl⟩ := map_eq_ok_iff.mp htext
  have hnesting := depth_of_treeFrom htree
  refine ⟨tree, ?_, hnesting, ?_, ?_⟩
  · rw [renderTree, if_neg (Nat.lt_irrefl q.depth), htree]
  · rw [tree.arrayNesting_toJson, hnesting]
  · intro hleaves
    rw [FilterTree.bracketNesting_flatten ((leafTexts_iff htree).mp hleaves), hnesting]

theorem depth_is_nesting_of_every_view_unbalanced :
    let q := (empty.negate.or ((present "a").and
      (((absent "b").or (single "c" (.scalar (.string "AND")))).negate.or
        (present "d").negate))).negate
    let text := "(a NOT EXISTS) OR (((b NOT EXISTS) OR (c = AND)) AND (d EXISTS))"
    (q.render = .ok text ∧ q.LeafTexts Unbracketed) ∧ q.depth = 3 ∧ bracketNesting text = 3 := by
  intro q text
  have htext : q.render = .ok text := by cbv
  have hleaves : (FilterTree.group .or (.leaf "a NOT EXISTS")
      (.group .and (.group .or (.leaf "b NOT EXISTS") (.leaf "c = AND"))
        (.leaf "d EXISTS"))).Leaves Unbracketed := by
    have ha : Unbracketed "a NOT EXISTS" := by decide
    have hb : Unbracketed "b NOT EXISTS" := by decide
    have hc : Unbracketed "c = AND" := by decide
    have hd : Unbracketed "d EXISTS" := by decide
    exact ⟨ha, ⟨hb, hc⟩, hd⟩
  have hqLeaves : q.LeafTexts Unbracketed := (leafTexts_iff (by cbv)).mpr hleaves
  have hdepth : q.depth = 3 := by cbv
  obtain ⟨tree, -, -, -, hbrackets⟩ := depth_is_nesting_of_every_view.2.2.2.2 q text htext
  rw [hdepth] at hbrackets
  exact ⟨⟨htext, hqLeaves⟩, hdepth, hbrackets hqLeaves⟩

end Expr

end SearchFilter
