import SearchFilter.Expr.Tree
import SearchFilter.Proofs.Fault

/-!
# The entries of a filter

A filter is only as good as its entries. Whether it can be written depends on nothing but whether
each of its entries has a condition.
-/

namespace SearchFilter.Expr

/-- The entries of all leaves, from left to right. -/
def entries : Expr → List Entry
  | leaf _ entries => entries
  | node _ _ left right => left.entries ++ right.entries

theorem entries_negate (q : Expr) : q.negate.entries = q.entries := by
  cases q <;> rfl

def Parses (q : Expr) : Prop :=
  ∀ entry ∈ q.entries, ∃ c, entry.condition = .ok c

theorem parses_node {negated : Bool} {op : Connective} {left right : Expr} :
    (node negated op left right).Parses ↔ left.Parses ∧ right.Parses := by
  simp only [Parses, entries, List.forall_mem_append]

theorem Parses.exists_treeFrom {q : Expr} (h : q.Parses) (inherited : Bool) :
    ∃ tree, q.treeFrom inherited = .ok tree := by
  induction q generalizing inherited with
  | leaf negated entries =>
      obtain ⟨conditions, hconditions⟩ := exists_mapM_eq_ok h
      rw [Expr.entries] at hconditions
      rw [treeFrom, renderLeaf, hconditions]
      exact ⟨_, rfl⟩
  | node negated op left right ihLeft ihRight =>
      obtain ⟨hleft, hright⟩ := parses_node.mp h
      obtain ⟨leftTree, hleftTree⟩ := ihLeft hleft (inherited ^^ negated)
      obtain ⟨rightTree, hrightTree⟩ := ihRight hright (inherited ^^ negated)
      rw [treeFrom, hleftTree, hrightTree]
      exact ⟨_, rfl⟩

end SearchFilter.Expr
