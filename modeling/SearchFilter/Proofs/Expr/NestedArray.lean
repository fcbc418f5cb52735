import SearchFilter.Proofs.Expr.Depth
import SearchFilter.Proofs.Json.RoundTrip

/-!
# Nested arrays

A tree becomes a nested array in two ways: as a value that is built from it, and as what it writes
in some form, one part after the other. Both are the same array. It shows where the leaves stand and
what they say, and nothing of the connectives, so two trees with the same array have the same shape
and the same leaves. A leaf whose text looks like an array is no exception, since it is a string all
the same.
-/

namespace SearchFilter.FilterTree

/-- The value is the array of the tree: a leaf is its text, and a group is its two operands, the
left one first. -/
inductive NestedArray : FilterTree → Json → Prop where
  | leaf (text : String) : NestedArray (.leaf text) (.string text)
  | group (op : Connective) {left right : FilterTree} {first second : Json} :
      NestedArray left first → NestedArray right second →
      NestedArray (.group op left right) (.array [first, second])

/-- The trees have the same shape and the same leaves, under whatever connectives. -/
inductive SameLeaves : FilterTree → FilterTree → Prop where
  | leaf (text : String) : SameLeaves (.leaf text) (.leaf text)
  | group (op op' : Connective) {left right left' right' : FilterTree} :
      SameLeaves left left' → SameLeaves right right' →
      SameLeaves (.group op left right) (.group op' left' right')

/-- What a tree shows without its connectives: the text of a leaf, and nothing of a group. -/
def leafText? : FilterTree → Option String
  | leaf text => some text
  | group .. => none

/-! ### One array -/

theorem nestedArray_iff {tree : FilterTree} {value : Json} :
    NestedArray tree value ↔ value = tree.toJson := by
  constructor
  · intro h
    induction h with
    | leaf text => rfl
    | group op _ _ ihLeft ihRight => rw [ihLeft, ihRight, toJson]
  · rintro rfl
    induction tree with
    | leaf text => exact .leaf text
    | group op left right ihLeft ihRight => exact .group op ihLeft ihRight

theorem write_value (tree : FilterTree) : tree.write .value = tree.toJson := by
  induction tree with
  | leaf text => rfl
  | group op left right ihLeft ihRight =>
      rw [write, ihLeft, ihRight]
      rfl

theorem text_eq (tree : FilterTree) : tree.text = tree.toJson.text := by
  induction tree with
  | leaf text => rfl
  | group op left right ihLeft ihRight =>
      calc (group op left right).text
          = Json.bracketed [left.text, right.text] := rfl
        _ = Json.bracketed (Json.itemTexts [left.toJson, right.toJson]) := by
            rw [ihLeft, ihRight, Json.itemTexts_eq_map, List.map_cons, List.map_singleton]
        _ = (group op left right).toJson.text := rfl

/-! ### Reading the array -/

theorem whole_toJson (tree : FilterTree) : tree.toJson.Whole := by
  induction tree with
  | leaf text => exact .string text
  | group op left right ihLeft ihRight =>
      refine Json.Whole.array_iff.mpr (List.forall_mem_cons.mpr ⟨ihLeft, ?_⟩)
      exact List.forall_mem_singleton.mpr ihRight

theorem canonical_toJson (tree : FilterTree) : tree.toJson.Canonical := by
  induction tree with
  | leaf text => exact .of_levels_eq_zero rfl
  | group op left right ihLeft ihRight =>
      refine Json.Canonical.array_iff.mpr (List.forall_mem_cons.mpr ⟨ihLeft, ?_⟩)
      exact List.forall_mem_singleton.mpr ihRight

theorem levels_toJson (tree : FilterTree) : tree.toJson.levels = tree.nesting := by
  induction tree with
  | leaf text => rfl
  | group op left right ihLeft ihRight =>
      simp [toJson, Json.levels, Json.itemLevels, nesting, ihLeft, ihRight]

theorem read?_text (tree : FilterTree) (extra : Nat) :
    Json.read? (tree.nesting + extra) tree.text = some tree.toJson := by
  have hlevels : tree.toJson.levels ≤ tree.nesting + extra := by
    rw [levels_toJson]
    exact Nat.le_add_right tree.nesting extra
  rw [text_eq]
  exact Json.read?_text tree.whole_toJson tree.canonical_toJson hlevels

/-! ### What the array tells -/

variable {a b : FilterTree}

theorem SameLeaves.write_eq {α : Type} (format : Json.Format α) (h : SameLeaves a b) :
    a.write format = b.write format := by
  induction h with
  | leaf text => rfl
  | group op op' _ _ ihLeft ihRight => rw [write, write, ihLeft, ihRight]

theorem toJson_eq_iff : a.toJson = b.toJson ↔ SameLeaves a b := by
  constructor
  · intro h
    induction a generalizing b with
    | leaf text =>
        cases b with
        | leaf text' =>
            obtain rfl := Json.string.inj h
            exact .leaf text
        | group op' left' right' => exact Json.noConfusion h
    | group op left right ihLeft ihRight =>
        cases b with
        | leaf text' => exact Json.noConfusion h
        | group op' left' right' =>
            obtain ⟨hleft, hrest⟩ := List.cons_eq_cons.mp (Json.array.inj h)
            obtain ⟨hright, -⟩ := List.cons_eq_cons.mp hrest
            exact .group op op' (ihLeft hleft) (ihRight hright)
  · intro h
    rw [← write_value, ← write_value]
    exact h.write_eq .value

theorem text_eq_iff : a.text = b.text ↔ SameLeaves a b := by
  constructor
  · intro h
    -- Both texts are read to a depth that is enough for either tree.
    have ha := a.read?_text b.nesting
    have hb := b.read?_text a.nesting
    rw [h, Nat.add_comm, hb] at ha
    exact toJson_eq_iff.mp (Option.some.inj ha).symm
  · exact fun h => h.write_eq .text

theorem sameLeaves_iff_leafText? :
    SameLeaves a b ↔ ∀ path, (a.at? path).map leafText? = (b.at? path).map leafText? := by
  constructor
  · intro h path
    induction h generalizing path with
    | leaf text => rfl
    | group op op' _ _ ihLeft ihRight =>
        match path with
        | [] => rfl
        | .left :: path => exact ihLeft path
        | .right :: path => exact ihRight path
  · intro h
    induction a generalizing b with
    | leaf text =>
        cases b with
        | leaf text' =>
            obtain rfl : text = text' := by simpa [at?, leafText?] using h []
            exact .leaf text
        | group op' left' right' => simpa [at?, leafText?] using h []
    | group op left right ihLeft ihRight =>
        cases b with
        | leaf text' => simpa [at?, leafText?] using h []
        | group op' left' right' =>
            exact .group op op' (ihLeft fun path => h (.left :: path))
              (ihRight fun path => h (.right :: path))

/-- **Only the connectives are lost.** The value of a tree and what it writes are one nested array,
and its text is read as that array again. Two trees have the same array, in every form or in the
text alone, exactly if they have the same shape and say the same at the same leaves. -/
theorem nested_array_loses_only_connectives :
    (∀ (tree : FilterTree) (value : Json), NestedArray tree value ↔ value = tree.toJson) ∧
    (∀ tree : FilterTree, tree.write .value = tree.toJson ∧ tree.text = tree.toJson.text ∧
      ∀ extra, Json.read? (tree.nesting + extra) tree.text = some tree.toJson) ∧
    ∀ a b : FilterTree,
      (a.toJson = b.toJson ↔ SameLeaves a b) ∧
      (a.text = b.text ↔ SameLeaves a b) ∧
      ((∀ (α : Type) (format : Json.Format α), a.write format = b.write format) ↔ SameLeaves a b) ∧
      (SameLeaves a b ↔ ∀ path, (a.at? path).map leafText? = (b.at? path).map leafText?) := by
  refine ⟨fun _ _ => nestedArray_iff, fun tree => ⟨tree.write_value, tree.text_eq, tree.read?_text⟩,
    fun a b => ⟨toJson_eq_iff, text_eq_iff, ?_, sameLeaves_iff_leafText?⟩⟩
  constructor
  · intro h
    have hvalue := h Json .value
    rw [write_value, write_value] at hvalue
    exact toJson_eq_iff.mp hvalue
  · exact fun h _ format => h.write_eq format

end SearchFilter.FilterTree
