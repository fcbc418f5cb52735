import SearchFilter.Proofs.Expr.TreeText
import SearchFilter.Proofs.Text.Joined

/-!
# Reading a text back

The text of a filter puts every operand of a connective between brackets. As long as the texts of
the leaves have no brackets of their own, the tree can be read off the text: an operand ends at the
bracket that closes it, and until then its own brackets are closed. Nothing else about the leaves
matters, so a leaf may well spell a connective.
-/

namespace SearchFilter

def Unbracketed (text : String) : Prop :=
  '(' ∉ text.toList ∧ ')' ∉ text.toList

instance (text : String) : Decidable (Unbracketed text) :=
  inferInstanceAs (Decidable (_ ∧ _))

/-- What the text of every leaf satisfies. -/
def FilterTree.Leaves (p : String → Prop) : FilterTree → Prop
  | leaf text => p text
  | group _ left right => left.Leaves p ∧ right.Leaves p

/-- What the text of every leaf satisfies, as the walk has it written. -/
def Expr.LeafTexts (q : Expr) (p : String → Prop) : Prop :=
  ∀ entries negate level, .leaf entries negate level ∈ q.events false 0 →
    ∀ text, Expr.renderLeaf entries negate = .ok text → p text

namespace NormalForm

theorem leaves_iff {p : String → Prop} {form : NormalForm} {tree : FilterTree} (level : Nat)
    (htree : form.tree = .ok tree) :
    tree.Leaves p ↔ ∀ entries negate level', .leaf entries negate level' ∈ form.events level →
      ∀ text, Expr.renderLeaf entries negate = .ok text → p text := by
  induction form generalizing level tree with
  | leaf negate entries =>
      obtain ⟨text, htext, hleaf⟩ := bind_eq_ok_iff.mp htree
      obtain rfl := Except.ok.inj hleaf
      constructor
      · intro hp entries' negate' level' hmem text' htext'
        obtain ⟨rfl, rfl, rfl⟩ : entries' = entries ∧ negate' = negate ∧ level' = level := by
          simpa [events] using hmem
        obtain rfl := Except.ok.inj (htext.symm.trans htext')
        exact hp
      · intro h
        exact h entries negate level List.mem_cons_self text htext
  | group op left right ihLeft ihRight =>
      obtain ⟨leftTree, hleft, htree⟩ := bind_eq_ok_iff.mp htree
      obtain ⟨rightTree, hright, hgroup⟩ := bind_eq_ok_iff.mp htree
      obtain rfl := Except.ok.inj hgroup
      rw [FilterTree.Leaves, ihLeft (level + 1) hleft, ihRight (level + 1) hright]
      have hmem (entries : List Entry) (negate : Bool) (level' : Nat) :
          .leaf entries negate level' ∈ (group op left right).events level ↔
            .leaf entries negate level' ∈ left.events (level + 1) ∨
              .leaf entries negate level' ∈ right.events (level + 1) := by
        simp [events]
      simp only [hmem, or_imp, forall_and]

end NormalForm

theorem Expr.leafTexts_iff {q : Expr} {p : String → Prop} {tree : FilterTree}
    (htree : q.treeFrom false = .ok tree) : q.LeafTexts p ↔ tree.Leaves p := by
  rw [treeFrom_eq] at htree
  rw [LeafTexts, events_eq, NormalForm.leaves_iff 0 htree]

namespace FilterTree

theorem toList_flatten_group (op : Connective) (left right : FilterTree) :
    (group op left right).flatten.toList =
      '(' :: (left.flatten.toList ++ ')' :: ' ' ::
        (op.token.toList ++ ' ' :: '(' :: (right.flatten.toList ++ [')']))) := by
  simp [flatten]

theorem token_append_inj {op op' : Connective} {rest rest' : List Char}
    (h : op.token.toList ++ ' ' :: rest = op'.token.toList ++ ' ' :: rest') :
    op = op' ∧ rest = rest' := by
  cases op <;> cases op' <;> simp_all [Connective.token]

theorem leaf_ne_group {text : String} (htext : Unbracketed text) (op : Connective)
    (left right : FilterTree) (rest rest' : List Char) :
    text.toList ++ ')' :: rest ≠ (group op left right).flatten.toList ++ rest' := by
  rw [toList_flatten_group]
  intro h
  cases hchars : text.toList with
  | nil => simp [hchars] at h
  | cons c chars =>
      rw [hchars] at h
      exact htext.1 (by rw [hchars, (List.cons.inj h).1]; exact List.mem_cons_self)

/-- What stands before the bracket that closes an operand is the operand, whatever follows. -/
theorem flatten_append_inj {tree tree' : FilterTree} {rest rest' : List Char}
    (htree : tree.Leaves Unbracketed) (htree' : tree'.Leaves Unbracketed)
    (h : tree.flatten.toList ++ ')' :: rest = tree'.flatten.toList ++ ')' :: rest') :
    tree = tree' ∧ rest = rest' := by
  induction tree generalizing tree' rest rest' with
  | leaf text =>
      cases tree' with
      | leaf text' =>
          obtain ⟨htext, hrest⟩ := append_cons_inj htree.2 htree'.2 h
          exact ⟨congrArg leaf (String.toList_inj.mp htext), hrest⟩
      | group op left right => exact absurd h (leaf_ne_group htree op left right rest _)
  | group op left right ihLeft ihRight =>
      cases tree' with
      | leaf text' => exact absurd h.symm (leaf_ne_group htree' op left right rest' _)
      | group op' left' right' =>
          simp only [toList_flatten_group, List.cons_append, List.append_assoc] at h
          obtain ⟨hleft, h⟩ := ihLeft htree.1 htree'.1 (List.cons.inj h).2
          obtain ⟨hop, h⟩ := token_append_inj (List.cons.inj h).2
          obtain ⟨hright, h⟩ := ihRight htree.2 htree'.2 (List.cons.inj h).2
          exact ⟨by rw [hleft, hop, hright], (List.cons.inj h).2⟩

theorem eq_of_flatten_eq {tree tree' : FilterTree} (htree : tree.Leaves Unbracketed)
    (htree' : tree'.Leaves Unbracketed) (h : tree.flatten = tree'.flatten) : tree = tree' := by
  have hclosed : tree.flatten.toList ++ [')'] = tree'.flatten.toList ++ [')'] := by rw [h]
  exact (flatten_append_inj htree htree' hclosed).1

end FilterTree

namespace Expr

/-- **The text determines the tree.** Two filters with one text have one tree, if none of their
leaves is written with a bracket. -/
theorem render_determines_tree {a b : Expr} {text : String} (ha : a.render = .ok text)
    (hb : b.render = .ok text) (haLeaves : a.LeafTexts Unbracketed)
    (hbLeaves : b.LeafTexts Unbracketed) :
    ∃ tree, (∀ n, a.depth ≤ n → a.renderTree n = .ok tree) ∧
      ∀ m, b.depth ≤ m → b.renderTree m = .ok tree := by
  rw [render_eq] at ha hb
  obtain ⟨tree, htree, hflatten⟩ := map_eq_ok_iff.mp ha
  obtain ⟨tree', htree', hflatten'⟩ := map_eq_ok_iff.mp hb
  obtain rfl := FilterTree.eq_of_flatten_eq ((leafTexts_iff htree).mp haLeaves)
    ((leafTexts_iff htree').mp hbLeaves) (hflatten.trans hflatten'.symm)
  refine ⟨tree, fun n hn => ?_, fun m hm => ?_⟩
  · rw [renderTree, if_neg (Nat.not_lt.mpr hn), htree]
  · rw [renderTree, if_neg (Nat.not_lt.mpr hm), htree']

theorem render_determines_tree_spelled_connectives :
    let a := (single "title" (.scalar (.string "cats OR dogs"))).and
      ((single "kind" (.scalar (.string "pet"))).addEntry ⟨"age", .scalar (.string "AND")⟩)
    let b := (((single "title" (.scalar (.string "cats OR dogs"))).negate).or
      (ofEntries [⟨"kind__neq", .scalar (.string "pet")⟩, ⟨"age__neq", .scalar (.string "AND")⟩])).negate
    let text := "(title = \"cats OR dogs\") AND (kind = pet AND age = AND)"
    (a.render = .ok text ∧ b.render = .ok text ∧ a.LeafTexts Unbracketed ∧
      b.LeafTexts Unbracketed) ∧
    ∃ tree, (∀ n, a.depth ≤ n → a.renderTree n = .ok tree) ∧
      ∀ m, b.depth ≤ m → b.renderTree m = .ok tree := by
  intro a b text
  have ha : a.render = .ok text := by cbv
  have hb : b.render = .ok text := by cbv
  have hleaves : (FilterTree.group .and (.leaf "title = \"cats OR dogs\"")
      (.leaf "kind = pet AND age = AND")).Leaves Unbracketed := by
    have htitle : Unbracketed "title = \"cats OR dogs\"" := by decide
    have hkind : Unbracketed "kind = pet AND age = AND" := by decide
    exact ⟨htitle, hkind⟩
  have haLeaves : a.LeafTexts Unbracketed := (leafTexts_iff (by cbv)).mpr hleaves
  have hbLeaves : b.LeafTexts Unbracketed := (leafTexts_iff (by cbv)).mpr hleaves
  exact ⟨⟨ha, hb, haLeaves, hbLeaves⟩, render_determines_tree ha hb haLeaves hbLeaves⟩

end Expr

end SearchFilter
