import SearchFilter.Proofs.Expr.Built
import SearchFilter.Proofs.Expr.FirstFault

/-!
# The signed entries of a filter

What a filter asks for is a list: its entries from left to right, each with the sign that reaches it.
Composition appends these lists and negation flips their signs, whatever is empty or nested. The
texts add nothing and leave nothing out. Between the marks that show how a filter is put together,
they consist of the conditions of that list, in its order and under its signs.
-/

namespace SearchFilter.Expr

/-- The pieces are what the items write, one each and in order, with marks before, after and
between them. -/
inductive Interleaved {Item : Type} (mark : String → Prop) (writes : Item → String → Prop) :
    List String → List Item → Prop where
  | nil : Interleaved mark writes [] []
  | mark {piece : String} {pieces : List String} {items : List Item} :
      mark piece → Interleaved mark writes pieces items →
      Interleaved mark writes (piece :: pieces) items
  | item {piece : String} {pieces : List String} {item : Item} {items : List Item} :
      writes item piece → Interleaved mark writes pieces items →
      Interleaved mark writes (piece :: pieces) (item :: items)

namespace Interleaved

variable {Item : Type} {mark : String → Prop} {writes : Item → String → Prop}

theorem append {pieces pieces' : List String} {items items' : List Item}
    (h : Interleaved mark writes pieces items) (h' : Interleaved mark writes pieces' items') :
    Interleaved mark writes (pieces ++ pieces') (items ++ items') := by
  induction h with
  | nil => exact h'
  | mark hmark _ ih => exact .mark hmark ih
  | item hitem _ ih => exact .item hitem ih

theorem intersperse {separator : String} {pieces : List String} {items : List Item}
    (hseparator : mark separator) (h : Interleaved mark writes pieces items) :
    Interleaved mark writes (pieces.intersperse separator) items := by
  induction h with
  | nil => exact .nil
  | @mark piece rest items hmark h ih =>
      cases rest with
      | nil => exact .mark hmark h
      | cons next rest => exact .mark hmark (.mark hseparator ih)
  | @item piece rest item items hitem h ih =>
      cases rest with
      | nil => exact .item hitem h
      | cons next rest => exact .item hitem (.mark hseparator ih)

end Interleaved

/-- The marks of the filter language. -/
def IsMark (piece : String) : Prop :=
  piece ∈ ["(", ")", ") AND (", ") OR (", " AND "]

section Writers

variable {write write' : Event → Except Error (List String)} {mark : String → Prop}
  {writes : Entry × Bool → String → Prop}

end Writers

/-! The text of a leaf is one piece of the walk's, so it is taken apart once more. -/

end SearchFilter.Expr
