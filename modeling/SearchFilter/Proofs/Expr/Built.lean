import SearchFilter.Expr.Basic
import Mathlib.Tactic.SplitIfs

/-!
# Filters that can be built

The operations on filters never put an empty leaf under a node, since composition drops an empty
operand. The invariant is carried through every operation, and then along every way to build a
filter. It is what keeps a negated leaf from being an empty one, unless it is the whole filter.
-/

namespace SearchFilter.Expr

/-- The filters that the operations give, in any combination, together with their operands. -/
inductive Built : Expr → Prop where
  | empty : Built Expr.empty
  | single (key : String) (value : Operand) : Built (Expr.single key value)
  | typed (field : String) (op : Operator) (value : Operand) : Built (Expr.typed field op value)
  | present (field : String) : Built (Expr.present field)
  | absent (field : String) : Built (Expr.absent field)
  | ofEntries (entries : List Entry) : Built (Expr.ofEntries entries)
  | addEntry {q : Expr} (entry : Entry) : Built q → Built (q.addEntry entry)
  | negate {q : Expr} : Built q → Built q.negate
  | and {left right : Expr} : Built left → Built right → Built (left.and right)
  | or {left right : Expr} : Built left → Built right → Built (left.or right)
  | left {negated : Bool} {op : Connective} {left right : Expr} :
      Built (node negated op left right) → Built left
  | right {negated : Bool} {op : Connective} {left right : Expr} :
      Built (node negated op left right) → Built right

/-- No node of the filter has an empty leaf for an operand. -/
def NoEmptyOperand : Expr → Prop
  | leaf .. => True
  | node _ _ left right =>
    (left.isEmpty = false ∧ right.isEmpty = false) ∧ left.NoEmptyOperand ∧ right.NoEmptyOperand

theorem isEmpty_eq_true_iff {q : Expr} : q.isEmpty = true ↔ ∃ negated, q = leaf negated [] := by
  cases q with
  | leaf negated entries => simp [isEmpty]
  | node negated op left right => simp [isEmpty]

theorem isEmpty_negate (q : Expr) : q.negate.isEmpty = q.isEmpty := by
  cases q <;> rfl

theorem combine_of_nonempty {op : Connective} {a b : Expr} (ha : a.isEmpty = false)
    (hb : b.isEmpty = false) : combine op a b = node false op a b := by
  rw [combine, if_neg (by simp [hb]), if_neg (by simp [ha])]

theorem combine_of_empty_right {op : Connective} {a b : Expr} (hb : b.isEmpty = true) :
    combine op a b = a := by
  rw [combine, if_pos hb]

theorem combine_of_empty_left {op : Connective} {a b : Expr} (ha : a.isEmpty = true)
    (hb : b.isEmpty = false) : combine op a b = b := by
  rw [combine, if_neg (by simp [hb]), if_pos ha]

theorem noEmptyOperand_negate {q : Expr} (h : q.NoEmptyOperand) : q.negate.NoEmptyOperand := by
  cases q with
  | leaf negated entries => trivial
  | node negated op left right => exact h

theorem noEmptyOperand_combine {left right : Expr} (op : Connective) (hleft : left.NoEmptyOperand)
    (hright : right.NoEmptyOperand) : (combine op left right).NoEmptyOperand := by
  unfold combine
  split_ifs with hrightEmpty hleftEmpty
  · exact hleft
  · exact hright
  · exact ⟨⟨by simpa using hleftEmpty, by simpa using hrightEmpty⟩, hleft, hright⟩

theorem noEmptyOperand_addEntry {q : Expr} (entry : Entry) (h : q.NoEmptyOperand) :
    (q.addEntry entry).NoEmptyOperand := by
  cases q with
  | leaf negated entries => trivial
  | node negated op left right =>
      have hentry : (leaf false [entry]).NoEmptyOperand := trivial
      exact noEmptyOperand_combine .and h hentry

theorem noEmptyOperand_ofEntries (entries : List Entry) : (ofEntries entries).NoEmptyOperand := by
  suffices h : ∀ q : Expr, q.NoEmptyOperand → (entries.foldl addEntry q).NoEmptyOperand from
    h empty trivial
  induction entries with
  | nil => exact fun q hq => hq
  | cons entry rest ih => exact fun q hq => ih _ (noEmptyOperand_addEntry entry hq)

theorem Built.noEmptyOperand {q : Expr} (h : Built q) : q.NoEmptyOperand := by
  induction h with
  | empty | single | typed | present | absent => trivial
  | ofEntries entries => exact noEmptyOperand_ofEntries entries
  | addEntry entry _ ih => exact noEmptyOperand_addEntry entry ih
  | negate _ ih => exact noEmptyOperand_negate ih
  | and _ _ ihLeft ihRight => exact noEmptyOperand_combine .and ihLeft ihRight
  | or _ _ ihLeft ihRight => exact noEmptyOperand_combine .or ihLeft ihRight
  | left _ ih => exact ih.2.1
  | right _ ih => exact ih.2.2

end SearchFilter.Expr
