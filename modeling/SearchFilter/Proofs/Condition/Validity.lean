import SearchFilter.Condition
import SearchFilter.Proofs.Fault
import SearchFilter.Proofs.Key.Canonical

/-!
# Valid conditions

An operand is checked against its operator in a fixed order: an existence operator takes anything
and keeps nothing, then every number has to be finite, and only then does the shape count. What
passes is kept as it is, so checking a condition again finds nothing new. An operator and its
negation are of one class, so they admit the same operands, and a condition can be negated by its
operator just as well as by its sign.
-/

namespace SearchFilter

namespace Operand

def scalars : Operand → List Scalar
  | scalar s => [s]
  | list items => items
  | none => []

/-- No number in the operand is NaN or an infinity, be it the operand itself or an item. -/
def AllFinite (value : Operand) : Prop :=
  ∀ n, Scalar.number n ∈ value.scalars → n.isFinite = true

theorem isFinite_eq_true_iff (value : Operand) : value.isFinite = true ↔ value.AllFinite := by
  have hscalar (s : Scalar) : s.isFinite = true ↔ ∀ n, s = .number n → n.isFinite = true := by
    cases s with
    | string text => simp [Scalar.isFinite]
    | number n => simp [Scalar.isFinite]
    | bool b => simp [Scalar.isFinite]
  have hall : value.isFinite = value.scalars.all Scalar.isFinite := by
    cases value <;> simp [isFinite, scalars]
  rw [hall, List.all_eq_true]
  constructor
  · intro h n hn
    exact (hscalar _).mp (h _ hn) n rfl
  · intro h s hs
    refine (hscalar s).mpr ?_
    rintro n rfl
    exact h n hs

/-- Membership operators need a list, and comparisons a scalar. -/
def HasShapeFor (op : Operator) (value : Operand) : Prop :=
  if op.isMembership = true then ∃ items, value = .list items else ∃ s, value = .scalar s

/-- What is left of an operand in a condition. -/
def keptBy (op : Operator) (value : Operand) : Operand :=
  if op.isExistence = true then .none else value

end Operand

namespace Operator

/-- The name of the shape in error messages. -/
def shapeName (op : Operator) : String :=
  if op.isMembership = true then "list" else "scalar"

def Admits (op : Operator) (value : Operand) : Prop :=
  op.isExistence = true ∨ value.AllFinite ∧ value.HasShapeFor op

/-- Why an operand is refused. The target stands for the key or the field in error messages. -/
inductive Refuses (target : String) (op : Operator) (value : Operand) : Error → Prop where
  | notFinite (hop : op.isExistence = false) (hfinite : ¬value.AllFinite) :
      Refuses target op value (.invalidValue target "finite number" "non-finite number")
  | misshapen (hop : op.isExistence = false) (hfinite : value.AllFinite)
      (hshape : ¬value.HasShapeFor op) :
      Refuses target op value (.invalidValue target op.shapeName value.kind)

theorem admits_negated_iff {op : Operator} {value : Operand} :
    op.negated.Admits value ↔ op.Admits value := by
  simp [Admits, Operand.HasShapeFor]

theorem effective_negated (op : Operator) (negate : Bool) :
    op.negated.effective negate = op.effective (!negate) := by
  cases negate <;> simp

end Operator

theorem Operand.keptBy_negated (op : Operator) (value : Operand) :
    value.keptBy op.negated = value.keptBy op := by
  simp [keptBy]

theorem Operand.keptBy_keptBy (op : Operator) (value : Operand) :
    (value.keptBy op).keptBy op = value.keptBy op := by
  unfold keptBy
  split_ifs <;> rfl

theorem Operator.Admits.keptBy {op : Operator} {value : Operand} (h : op.Admits value) :
    op.Admits (value.keptBy op) := by
  unfold Operand.keptBy
  split_ifs with hop
  · exact .inl hop
  · exact h

namespace Condition

/-! ### The check -/

section Check

variable {target : String} {op : Operator} {value : Operand}

theorem checkOperand_of_admits (h : op.Admits value) :
    checkOperand target op value = .ok (value.keptBy op) := by
  unfold checkOperand Operand.keptBy
  by_cases hop : op.isExistence = true
  · rw [if_pos hop, if_pos hop]
  · obtain ⟨hfinite, hshape⟩ := h.resolve_left hop
    rw [← Operand.isFinite_eq_true_iff] at hfinite
    unfold Operand.HasShapeFor at hshape
    rw [if_neg hop, if_neg hop, if_neg (by simp [hfinite])]
    by_cases hmembership : op.isMembership = true
    · rw [if_pos hmembership] at hshape ⊢
      obtain ⟨items, rfl⟩ := hshape
      rfl
    · rw [if_neg hmembership] at hshape ⊢
      obtain ⟨s, rfl⟩ := hshape
      rfl

theorem checkOperand_of_refuses {fault : Error} (h : op.Refuses target value fault) :
    checkOperand target op value = .error fault := by
  unfold checkOperand
  cases h with
  | notFinite hop hfinite =>
      rw [← Operand.isFinite_eq_true_iff] at hfinite
      rw [if_neg (by simp [hop]), if_pos (by simp [hfinite])]
  | misshapen hop hfinite hshape =>
      rw [← Operand.isFinite_eq_true_iff] at hfinite
      unfold Operand.HasShapeFor at hshape
      rw [if_neg (by simp [hop]), if_neg (by simp [hfinite]), Operator.shapeName]
      by_cases hmembership : op.isMembership = true
      · rw [if_pos hmembership] at hshape
        rw [if_pos hmembership, if_pos hmembership]
        cases value with
        | list items => exact absurd ⟨items, rfl⟩ hshape
        | scalar s => rfl
        | none => rfl
      · rw [if_neg hmembership] at hshape
        rw [if_neg hmembership, if_neg hmembership]
        cases value with
        | scalar s => exact absurd ⟨s, rfl⟩ hshape
        | list items => rfl
        | none => rfl

theorem admits_or_refuses (target : String) (op : Operator) (value : Operand) :
    op.Admits value ∨ ∃ fault, op.Refuses target value fault := by
  by_cases hop : op.isExistence = true
  · exact .inl (.inl hop)
  · rw [Bool.not_eq_true] at hop
    by_cases hfinite : value.AllFinite
    · by_cases hshape : value.HasShapeFor op
      · exact .inl (.inr ⟨hfinite, hshape⟩)
      · exact .inr ⟨_, .misshapen hop hfinite hshape⟩
    · exact .inr ⟨_, .notFinite hop hfinite⟩

theorem decided_checkOperand (target : String) (op : Operator) (value : Operand) :
    Decided (checkOperand target op value) (fun kept => op.Admits value ∧ kept = value.keptBy op)
      (op.Refuses target value) where
  ok := by
    rintro kept ⟨hadmits, rfl⟩
    exact checkOperand_of_admits hadmits
  error _ := checkOperand_of_refuses
  total := by
    rcases admits_or_refuses target op value with hadmits | hrefuses
    · exact .inl ⟨_, hadmits, rfl⟩
    · exact .inr hrefuses

end Check

/-! ### Two ways to a condition -/

theorem new_eq_ok_iff {field : String} {op : Operator} {value : Operand} {c : Condition} :
    new field op value = .ok c ↔ op.Admits value ∧ c = ⟨field, op, value.keptBy op⟩ := by
  rw [new, bind_eq_ok_iff]
  constructor
  · rintro ⟨kept, hkept, hc⟩
    obtain ⟨hadmits, rfl⟩ := (decided_checkOperand _ op value).eq_ok_iff.mp hkept
    exact ⟨hadmits, (Except.ok.inj hc).symm⟩
  · rintro ⟨hadmits, rfl⟩
    exact ⟨_, checkOperand_of_admits hadmits, rfl⟩

theorem new_eq_error_iff {field : String} {op : Operator} {value : Operand} {fault : Error} :
    new field op value = .error fault ↔ op.Refuses field value fault := by
  rw [new, bind_pure_comp, map_eq_error_iff, (decided_checkOperand field op value).eq_error_iff]

theorem parse_eq_ok_iff {key : String} {value : Operand} {c : Condition} :
    parse key value = .ok c ↔
      ∃ field op, Key.split key = .ok (field, op) ∧ op.Admits value ∧
        c = ⟨field, op, value.keptBy op⟩ := by
  rw [parse, bind_eq_ok_iff]
  constructor
  · rintro ⟨⟨field, op⟩, hkey, hvalue⟩
    obtain ⟨kept, hkept, hc⟩ := bind_eq_ok_iff.mp hvalue
    obtain ⟨hadmits, rfl⟩ := (decided_checkOperand _ op value).eq_ok_iff.mp hkept
    exact ⟨field, op, hkey, hadmits, (Except.ok.inj hc).symm⟩
  · rintro ⟨field, op, hkey, hadmits, rfl⟩
    exact ⟨(field, op), hkey, bind_eq_ok_iff.mpr ⟨_, checkOperand_of_admits hadmits, rfl⟩⟩

theorem parse_eq_error_iff {key : String} {value : Operand} {fault : Error} :
    parse key value = .error fault ↔
      Key.split key = .error fault ∨
        ∃ field op, Key.split key = .ok (field, op) ∧ op.Refuses key value fault := by
  rw [parse]
  cases hkey : Key.split key with
  | error fault' => simp
  | ok named =>
      obtain ⟨field, op⟩ := named
      rw [ok_bind]
      cases hvalue : checkOperand key op value with
      | error fault' => simp [← (decided_checkOperand key op value).eq_error_iff, hvalue]
      | ok kept => simp [← (decided_checkOperand key op value).eq_error_iff, hvalue]

/-! ### Conditions that have passed -/

/-- The operand is one that the operator admits, and nothing of it is left to drop. -/
structure Valid (c : Condition) : Prop where
  admits : c.op.Admits c.value
  keptBy : c.value.keptBy c.op = c.value

/-- The condition that holds exactly where this one does not. -/
def negated (c : Condition) : Condition :=
  { c with op := c.op.negated }

theorem valid_of_admits {op : Operator} {value : Operand} (field : String) (h : op.Admits value) :
    Valid ⟨field, op, value.keptBy op⟩ :=
  ⟨h.keptBy, Operand.keptBy_keptBy op value⟩

theorem Valid.new_eq {c : Condition} (h : c.Valid) : new c.field c.op c.value = .ok c := by
  rw [new_eq_ok_iff, h.keptBy]
  exact ⟨h.admits, rfl⟩

theorem Valid.negated {c : Condition} (h : c.Valid) : c.negated.Valid where
  admits := Operator.admits_negated_iff.mpr h.admits
  keptBy := by
    rw [Condition.negated, Operand.keptBy_negated]
    exact h.keptBy

theorem render_negated (c : Condition) (negate : Bool) :
    c.negated.render negate = c.render (!negate) := by
  simp only [render, negated, Operator.effective_negated]

theorem explain_negated (c : Condition) (negate : Bool) :
    c.negated.explain negate = c.explain (!negate) := by
  simp only [explain, negated, Operator.effective_negated]

/-- **Conditions are checked exactly, once, and alike under negation.** A key and an operand make a
condition if the key names an operator that admits the operand. Otherwise the fault is that of the
key, or else that of the operand, reported against the key. Whatever has become a condition passes
the check unchanged, and so does the condition with the opposite operator, which is written and
explained as the first one is under the opposite sign. -/
theorem checked_exactly_and_negatable :
    (∀ (key : String) (value : Operand) (c : Condition), parse key value = .ok c ↔
      ∃ field op, Key.split key = .ok (field, op) ∧ op.Admits value ∧
        c = ⟨field, op, value.keptBy op⟩) ∧
    (∀ (key : String) (value : Operand) (fault : Error), parse key value = .error fault ↔
      (∃ path suffix : String, key = path ++ Key.separator ++ suffix ∧
        ¬Key.HasSeparator ('_' :: suffix.toList) ∧ Operator.ofSuffix? suffix = none ∧
        fault = .invalidOperator key suffix) ∨
      ∃ field op, Key.split key = .ok (field, op) ∧ op.Refuses key value fault) ∧
    ∀ c : Condition, ((∃ key value, parse key value = .ok c) ∨
        ∃ field op value, new field op value = .ok c) →
      new c.field c.op c.value = .ok c ∧
      new c.field c.op.negated c.value = .ok c.negated ∧
      ∀ negate, c.negated.render negate = c.render (!negate) ∧
        c.negated.explain negate = c.explain (!negate) := by
  refine ⟨fun key value c => parse_eq_ok_iff, ?_, ?_⟩
  · intro key value fault
    rw [parse_eq_error_iff, Key.split_eq_error_iff]
  · intro c hc
    have hvalid : c.Valid := by
      rcases hc with ⟨key, value, hparse⟩ | ⟨field, op, value, hnew⟩
      · obtain ⟨field, op, -, hadmits, rfl⟩ := parse_eq_ok_iff.mp hparse
        exact valid_of_admits field hadmits
      · obtain ⟨hadmits, rfl⟩ := new_eq_ok_iff.mp hnew
        exact valid_of_admits field hadmits
    exact ⟨hvalid.new_eq, hvalid.negated.new_eq,
      fun negate => ⟨c.render_negated negate, c.explain_negated negate⟩⟩

theorem checked_exactly_and_negatable_membership :
    let nan : Scalar := .number (.double ⟨0x7ff8000000000000⟩)
    let tags : Operand := .list [.string "a b", .number (.double ⟨0x3ff8000000000000⟩)]
    let c : Condition := ⟨"meta.tags", .notIn, tags⟩
    parse "meta__tags__nin" tags = .ok c ∧
      new "meta.tags" .isIn tags = .ok c.negated ∧
      c.negated.render true = c.render false ∧
      parse "meta__tags__gt" (.list [.string "a", nan]) =
        .error (.invalidValue "meta__tags__gt" "finite number" "non-finite number") ∧
      parse "meta__tags__exists" (.list [nan]) = .ok ⟨"meta.tags", .present, .none⟩ := by
  intro nan tags c
  have hexcluded : Key.split "meta__tags__nin" = .ok ("meta.tags", .notIn) := by cbv
  have hgreater : Key.split "meta__tags__gt" = .ok ("meta.tags", .gt) := by cbv
  have hpresent : Key.split "meta__tags__exists" = .ok ("meta.tags", .present) := by cbv
  have htags : tags.AllFinite := by
    rw [← Operand.isFinite_eq_true_iff]
    decide
  have hnan : ¬(Operand.list [.string "a", nan]).AllFinite := by
    rw [← Operand.isFinite_eq_true_iff]
    decide
  obtain ⟨hok, herror, hchecked⟩ := checked_exactly_and_negatable
  have hparse : parse "meta__tags__nin" tags = .ok c :=
    (hok _ _ _).mpr ⟨_, _, hexcluded, .inr ⟨htags, _, rfl⟩, rfl⟩
  obtain ⟨-, hnegated, hwritten⟩ := hchecked c (.inl ⟨_, _, hparse⟩)
  refine ⟨hparse, hnegated, (hwritten true).1, ?_, ?_⟩
  · exact (herror _ _ _).mpr (.inr ⟨_, _, hgreater, .notFinite rfl hnan⟩)
  · exact (hok _ _ _).mpr ⟨_, _, hpresent, .inl rfl, rfl⟩

end Condition

end SearchFilter
