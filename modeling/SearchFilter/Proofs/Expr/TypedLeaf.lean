import SearchFilter.Proofs.Condition.Validity
import SearchFilter.Proofs.Expr.TreeText

/-!
# Typed leaves

A leaf of one typed condition keeps neither the field nor the operator but a key made of both, and
the key is taken apart when the leaf is read. Nothing is lost on the way but the separators in the
field, which come back as dots. So the leaf holds the condition that is made directly of that field,
or is refused for the same reason, which then names the key. Negating the leaf is as good as
negating its operator.
-/

namespace SearchFilter

/-- A condition and the conditions of a leaf agree: the leaf has that one condition, or both are
refused alike, each with a target of its own. -/
inductive LeafAgrees (target key : String) :
    Except Error Condition → Except Error (List Condition) → Prop where
  | condition (c : Condition) : LeafAgrees target key (.ok c) (.ok [c])
  | refused (expected actual : String) :
      LeafAgrees target key (.error (.invalidValue target expected actual))
        (.error (.invalidValue key expected actual))

theorem Operator.Refuses.retarget {target : String} {op : Operator} {value : Operand}
    {fault : Error} (h : op.Refuses target value fault) (key : String) :
    ∃ expected actual, fault = .invalidValue target expected actual ∧
      op.Refuses key value (.invalidValue key expected actual) := by
  cases h with
  | notFinite hop hfinite => exact ⟨_, _, rfl, .notFinite hop hfinite⟩
  | misshapen hop hfinite hshape => exact ⟨_, _, rfl, .misshapen hop hfinite hshape⟩

/-- The field with a dot for every separator, as a key names it. -/
def Key.dottedField (field : String) : String :=
  String.ofList (dotted field.toList)

theorem Key.dottedField_of_not_hasSeparator {field : String} (h : ¬HasSeparator field.toList) :
    dottedField field = field := by
  rw [dottedField, dotted_eq_self_iff.mpr h, String.ofList_toList]

namespace Condition

theorem parse_join_eq_ok_iff {field : String} {op : Operator} {value : Operand} {c : Condition} :
    parse (Key.join field op) value = .ok c ↔
      op.Admits value ∧ c = ⟨Key.dottedField field, op, value.keptBy op⟩ := by
  rw [parse_eq_ok_iff, Key.split_join]
  constructor
  · rintro ⟨field', op', hkey, hadmits, rfl⟩
    obtain ⟨rfl, rfl⟩ := Prod.mk.inj (Except.ok.inj hkey)
    exact ⟨hadmits, rfl⟩
  · rintro ⟨hadmits, rfl⟩
    exact ⟨_, _, rfl, hadmits, rfl⟩

theorem parse_join_eq_error_iff {field : String} {op : Operator} {value : Operand}
    {fault : Error} :
    parse (Key.join field op) value = .error fault ↔
      op.Refuses (Key.join field op) value fault := by
  rw [parse_eq_error_iff, Key.split_join]
  constructor
  · rintro (hkey | ⟨field', op', hkey, hrefuses⟩)
    · cases hkey
    · obtain ⟨rfl, rfl⟩ := Prod.mk.inj (Except.ok.inj hkey)
      exact hrefuses
  · exact fun hrefuses => .inr ⟨_, _, rfl, hrefuses⟩

theorem negated_involutive : Function.Involutive negated := by
  intro c
  simp only [negated, Operator.negated_negated]

theorem parse_join_negated_eq_ok_iff {field : String} {op : Operator} {value : Operand}
    {c : Condition} :
    parse (Key.join field op.negated) value = .ok c.negated ↔
      parse (Key.join field op) value = .ok c := by
  have hparts (d : Condition) : c.negated = d.negated ↔ c = d := negated_involutive.injective.eq_iff
  rw [parse_join_eq_ok_iff, parse_join_eq_ok_iff, Operator.admits_negated_iff,
    Operand.keptBy_negated, ← hparts]
  rfl

/-- A writer that takes a negated condition for the condition under the opposite sign cannot tell a
negated operator from a negative sign. -/
theorem map_parse_join_negated {write : Condition → Bool → String}
    (hwrite : ∀ (c : Condition) (negate : Bool), write c.negated negate = write c (!negate))
    {field : String} {op : Operator} {value : Operand} {text : String} :
    (write · true) <$> parse (Key.join field op) value = .ok text ↔
      (write · false) <$> parse (Key.join field op.negated) value = .ok text := by
  rw [map_eq_ok_iff, map_eq_ok_iff]
  constructor
  · rintro ⟨c, hparse, rfl⟩
    exact ⟨c.negated, parse_join_negated_eq_ok_iff.mpr hparse, hwrite c false⟩
  · rintro ⟨c, hparse, rfl⟩
    obtain ⟨c, rfl⟩ := negated_involutive.surjective c
    exact ⟨c, parse_join_negated_eq_ok_iff.mp hparse, (hwrite c false).symm⟩

end Condition

namespace Expr

theorem conditions_typed (field : String) (op : Operator) (value : Operand) :
    (typed field op value).conditions =
      (fun c => [c]) <$> Condition.parse (Key.join field op) value := by
  simp [typed, single, conditions, Entry.condition]

theorem render_single_entry (negated : Bool) (entry : Entry) :
    (leaf negated [entry]).render = (·.render negated) <$> entry.condition := by
  simp [render_eq, treeFrom, renderLeaf, FilterTree.flatten, monad_norm]

theorem explain_single_entry (negated : Bool) (entry : Entry) :
    (leaf negated [entry]).explain = (·.explain negated) <$> entry.condition := by
  simp [explain, collect_eq, normalForm, NormalForm.events, emit_cons, emit_nil, explainEvent,
    indent, monad_norm]

theorem agree_conditions_typed (field : String) (op : Operator) (value : Operand) :
    LeafAgrees (Key.dottedField field) (Key.join field op)
      (Condition.new (Key.dottedField field) op value) (typed field op value).conditions := by
  rw [conditions_typed]
  rcases Condition.admits_or_refuses (Key.dottedField field) op value with
    hadmits | ⟨fault, hrefuses⟩
  · rw [Condition.new_eq_ok_iff.mpr ⟨hadmits, rfl⟩,
      Condition.parse_join_eq_ok_iff.mpr ⟨hadmits, rfl⟩]
    exact .condition _
  · obtain ⟨expected, actual, rfl, hkey⟩ := hrefuses.retarget (Key.join field op)
    rw [Condition.new_eq_error_iff.mpr hrefuses, Condition.parse_join_eq_error_iff.mpr hkey]
    exact .refused expected actual

/-- An existence operator refuses nothing. -/
theorem parse_join_existence {op : Operator} (field : String) (h : op.isExistence = true) :
    Condition.parse (Key.join field op) .none = .ok ⟨Key.dottedField field, op, .none⟩ := by
  rw [Condition.parse_join_eq_ok_iff, Operand.keptBy, if_pos h]
  exact ⟨.inl h, rfl⟩

theorem render_absent (field : String) :
    (absent field).render = .ok (Key.dottedField field ++ " " ++ Operator.absent.token) := by
  rw [absent, typed, single, render_single_entry, Entry.condition, parse_join_existence field rfl]
  rfl

theorem explain_absent (field : String) :
    (absent field).explain =
      .ok ("field \"" ++ Key.dottedField field ++ "\": " ++ Operator.absent.describe) := by
  rw [absent, typed, single, explain_single_entry, Entry.condition, parse_join_existence field rfl]
  rfl

/-- **A typed leaf holds the typed condition.** The one condition of the leaf is the condition made
directly of the field, if the field has no separator, and of the field with dots for its separators
in general. Where that one is refused the leaf is refused with the same fault of its key. A negated
leaf is written and described as the leaf of the negated operator, and the negated test for the
presence of a field as the test for its absence. -/
theorem typed_leaf_agrees_with_condition :
    (∀ (field : String) (op : Operator) (value : Operand), ¬Key.HasSeparator field.toList →
      LeafAgrees field (Key.join field op) (Condition.new field op value)
        (typed field op value).conditions) ∧
    (∀ (field : String) (op : Operator) (value : Operand),
      LeafAgrees (Key.dottedField field) (Key.join field op)
        (Condition.new (Key.dottedField field) op value) (typed field op value).conditions) ∧
    (∀ (field : String) (op : Operator) (value : Operand) (text : String),
      ((typed field op value).negate.render = .ok text ↔
        (typed field op.negated value).render = .ok text) ∧
      ((typed field op value).negate.explain = .ok text ↔
        (typed field op.negated value).explain = .ok text)) ∧
    ∀ field : String, ∃ text description,
      ((present field).negate.render = .ok text ∧ (absent field).render = .ok text) ∧
      (present field).negate.explain = .ok description ∧
        (absent field).explain = .ok description := by
  have hnegate (field : String) (op : Operator) (value : Operand) (text : String) :
      ((typed field op value).negate.render = .ok text ↔
        (typed field op.negated value).render = .ok text) ∧
      ((typed field op value).negate.explain = .ok text ↔
        (typed field op.negated value).explain = .ok text) := by
    constructor
    · rw [typed, single, negate, typed, single, render_single_entry, render_single_entry]
      exact Condition.map_parse_join_negated Condition.render_negated
    · rw [typed, single, negate, typed, single, explain_single_entry, explain_single_entry]
      exact Condition.map_parse_join_negated Condition.explain_negated
  refine ⟨?_, agree_conditions_typed, hnegate, ?_⟩
  · intro field op value hfield
    have hagree := agree_conditions_typed field op value
    rwa [Key.dottedField_of_not_hasSeparator hfield] at hagree
  · intro field
    refine ⟨_, _, ⟨?_, render_absent field⟩, ?_, explain_absent field⟩
    · exact (hnegate field .present .none _).1.mpr (render_absent field)
    · exact (hnegate field .present .none _).2.mpr (explain_absent field)

theorem typed_leaf_agrees_with_condition_underscores :
    let value : Operand := .scalar (.string "x")
    ¬Key.HasSeparator "_a_".toList ∧
      (typed "_a_" .lt value).conditions = .ok [⟨"_a_", .lt, value⟩] ∧
      (typed "_a_" .isIn value).conditions =
        .error (.invalidValue "_a___in" "list" "string") := by
  intro value
  have hfield : ¬Key.HasSeparator "_a_".toList := by decide
  refine ⟨hfield, ?_, ?_⟩
  · have hagree := typed_leaf_agrees_with_condition.1 "_a_" .lt value hfield
    have hnew : Condition.new "_a_" .lt value = .ok ⟨"_a_", .lt, value⟩ := rfl
    rw [hnew] at hagree
    generalize (typed "_a_" .lt value).conditions = result at hagree ⊢
    cases hagree
    rfl
  · have hagree := typed_leaf_agrees_with_condition.1 "_a_" .isIn value hfield
    have hnew : Condition.new "_a_" .isIn value =
        .error (.invalidValue "_a_" "list" "string") := rfl
    rw [hnew] at hagree
    generalize (typed "_a_" .isIn value).conditions = result at hagree ⊢
    cases hagree
    rfl

end Expr

end SearchFilter
