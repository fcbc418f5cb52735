import SearchFilter.Proofs.Expr.Built
import SearchFilter.Proofs.Expr.FirstFault
import SearchFilter.Proofs.Expr.LeafText

/-!
# What a filter means

A filter is meant to hold of a document as its flags say: a leaf holds if all of its conditions do,
a node if its connective says so of its operands, and a flag turns the answer round. A filter is
written without a word for "not", so what is written can only be read off its normal form, in which
a negated leaf asks for the negation of each of its conditions: its text has them all, each with the
operator that it is read by. That is more than the negation of them together: where two conditions
share a negated leaf, the written filter is the stronger one. Where no two do, both mean the same.
-/

namespace SearchFilter

/-- The answers of one document to all tests. A test and its negation have opposite answers. -/
structure Valuation where
  decides : String → Operator → Operand → Bool
  decides_negated : ∀ field op value, decides field op.negated value = !decides field op value

/-- The document that answers the five positive tests so. -/
def Valuation.ofTests (tests : String → Operator → Operand → Bool) : Valuation where
  decides field op value :=
    match op with
    | .eq | .gt | .ge | .isIn | .present => tests field op value
    | .ne | .lt | .le | .notIn | .absent => !tests field op.negated value
  decides_negated field op value := by
    cases op <;> simp [Operator.negated]

/-- The connective between two answers. -/
def Connective.join : Connective → Bool → Bool → Bool
  | .and, left, right => left && right
  | .or, left, right => left || right

theorem Connective.join_mono (op : Connective) {left left' right right' : Bool}
    (hleft : left = true → left' = true) (hright : right = true → right' = true)
    (h : op.join left right = true) : op.join left' right' = true := by
  cases op with
  | and =>
      rw [Connective.join, Bool.and_eq_true] at h ⊢
      exact ⟨hleft h.1, hright h.2⟩
  | or =>
      rw [Connective.join, Bool.or_eq_true] at h ⊢
      exact h.imp hleft hright

/-- De Morgan's laws, under either sign. -/
theorem Connective.join_effective (op : Connective) (negate left right : Bool) :
    (op.effective negate).join (negate ^^ left) (negate ^^ right) =
      (negate ^^ op.join left right) := by
  cases op <;> cases negate <;> simp [Connective.effective, Connective.dual, Connective.join]

namespace Valuation

variable (v : Valuation)

/-- The answer to a condition that is written under a sign. -/
def holds (negate : Bool) (c : Condition) : Bool :=
  v.decides c.field (c.op.effective negate) c.value

theorem holds_true (c : Condition) : v.holds true c = !v.holds false c :=
  v.decides_negated c.field c.op c.value

/-- The answer to an entry that is written under a sign. An entry without a condition asks
nothing. -/
def admits (negate : Bool) (entry : Entry) : Bool :=
  match entry.condition with
  | .ok c => v.holds negate c
  | .error _ => true

theorem admits_true {entry : Entry} (h : ∃ c, entry.condition = .ok c) :
    v.admits true entry = !v.admits false entry := by
  obtain ⟨c, hc⟩ := h
  simp only [admits, hc, holds_true]

theorem all_admits_eq {entries : List Entry} {conditions : List Condition}
    (hparse : entries.mapM Entry.condition = .ok conditions) (negate : Bool) :
    entries.all (v.admits negate) = conditions.all (v.holds negate) := by
  induction entries generalizing conditions with
  | nil =>
      obtain rfl := Except.ok.inj hparse
      rfl
  | cons entry rest ih =>
      obtain ⟨c, later, hc, hlater, rfl⟩ := mapM_cons_eq_ok_iff.mp hparse
      rw [List.all_cons, List.all_cons, ih hlater, admits, hc]

/-- A leaf is written as the clauses of these conditions, and what is read of it is that all of them
hold, each for the field and with the operator that its clause has. -/
structure ReadsLeaf (entries : List Entry) (negate : Bool) (conditions : List Condition) :
    Prop where
  parsed : entries.mapM Entry.condition = .ok conditions
  written : ∃ text, Expr.renderLeaf entries negate = .ok text ∧
    text.toList = Clause.separator.intercalate ((conditions.map (·.clause negate)).map Clause.text)
  read : entries.all (v.admits negate) = conditions.all fun c =>
    v.decides (c.clause negate).field (c.clause negate).op c.value

theorem exists_readsLeaf {entries : List Entry}
    (hparses : ∀ entry ∈ entries, ∃ c, entry.condition = .ok c) (negate : Bool) :
    ∃ conditions, v.ReadsLeaf entries negate conditions := by
  obtain ⟨conditions, hparse⟩ := exists_mapM_eq_ok hparses
  obtain ⟨text, htext⟩ := Expr.exists_renderLeaf hparse negate
  exact ⟨conditions, hparse, ⟨text, htext, Expr.toList_of_renderLeaf hparse htext⟩,
    v.all_admits_eq hparse negate⟩

/-- What is written of a negated leaf implies the negation of the leaf, unless the leaf is empty. -/
theorem all_admits_true {entries : List Entry} (hne : entries ≠ [])
    (hparses : ∀ entry ∈ entries, ∃ c, entry.condition = .ok c)
    (h : entries.all (v.admits true) = true) : entries.all (v.admits false) = false := by
  obtain ⟨entry, rest, rfl⟩ := List.exists_cons_of_ne_nil hne
  have hentry : v.admits true entry = true := by
    simp only [List.all_cons, Bool.and_eq_true] at h
    exact h.1
  rw [v.admits_true (hparses entry List.mem_cons_self), Bool.not_eq_true'] at hentry
  simp [hentry]

theorem all_admits_true_of_length_eq_one {entries : List Entry} (hone : entries.length = 1)
    (hparses : ∀ entry ∈ entries, ∃ c, entry.condition = .ok c) :
    entries.all (v.admits true) = !entries.all (v.admits false) := by
  obtain ⟨entry, rfl⟩ := List.length_eq_one_iff.mp hone
  simp [v.admits_true (hparses entry List.mem_cons_self)]

end Valuation

/-- The answer to what is written of a normal form. -/
def NormalForm.eval (v : Valuation) : NormalForm → Bool
  | leaf negate entries => entries.all (v.admits negate)
  | group op left right => op.join (left.eval v) (right.eval v)

/-- What the entries of every leaf that is written under a negative sign satisfy. -/
def NormalForm.NegatedLeaves (p : List Entry → Prop) : NormalForm → Prop
  | leaf negate entries => negate = true → p entries
  | group _ left right => left.NegatedLeaves p ∧ right.NegatedLeaves p

namespace Expr

/-- The answer that a filter is meant to have. -/
def eval (v : Valuation) : Expr → Bool
  | leaf negated entries => negated ^^ entries.all (v.admits false)
  | node negated op left right => negated ^^ op.join (left.eval v) (right.eval v)

theorem negatedLeaves_ne_nil {q : Expr} (inherited : Bool) (hbelow : q.NoEmptyOperand)
    (hne : q.isEmpty = false) : (q.normalForm inherited).NegatedLeaves (· ≠ []) := by
  induction q generalizing inherited with
  | leaf negated entries =>
      intro _
      simpa [isEmpty] using hne
  | node negated op left right ihLeft ihRight =>
      obtain ⟨⟨hleft, hright⟩, hleftBelow, hrightBelow⟩ := hbelow
      exact ⟨ihLeft _ hleftBelow hleft, ihRight _ hrightBelow hright⟩

theorem Parses.of_leaf_mem_events {q : Expr} (hparses : q.Parses) {inherited negate : Bool}
    {level level' : Nat} {entries : List Entry}
    (hleaf : .leaf entries negate level' ∈ q.events inherited level) :
    ∀ entry ∈ entries, ∃ c, entry.condition = .ok c := by
  intro entry hentry
  have hmem : entry ∈ (q.events inherited level).flatMap Event.entries :=
    List.mem_flatMap.mpr ⟨_, hleaf, hentry⟩
  rw [flatMap_entries_events] at hmem
  exact hparses entry hmem

variable (v : Valuation)

theorem eval_of_eval_normalForm {q : Expr} (inherited : Bool) (hparses : q.Parses)
    (hne : (q.normalForm inherited).NegatedLeaves (· ≠ []))
    (h : (q.normalForm inherited).eval v = true) : (inherited ^^ q.eval v) = true := by
  induction q generalizing inherited with
  | leaf negated entries =>
      simp only [normalForm, NormalForm.eval] at h
      rw [eval, ← Bool.xor_assoc]
      cases hsign : inherited ^^ negated with
      | false =>
          rw [hsign] at h
          simpa using h
      | true =>
          rw [hsign] at h
          simp [v.all_admits_true (hne hsign) hparses h]
  | node negated op left right ihLeft ihRight =>
      obtain ⟨hparsesLeft, hparsesRight⟩ := parses_node.mp hparses
      rw [eval, ← Bool.xor_assoc, ← Connective.join_effective]
      exact Connective.join_mono _ (ihLeft _ hparsesLeft hne.1) (ihRight _ hparsesRight hne.2) h

theorem eval_normalForm {q : Expr} (inherited : Bool) (hparses : q.Parses)
    (hone : (q.normalForm inherited).NegatedLeaves (·.length = 1)) :
    (q.normalForm inherited).eval v = (inherited ^^ q.eval v) := by
  induction q generalizing inherited with
  | leaf negated entries =>
      rw [eval, ← Bool.xor_assoc, normalForm, NormalForm.eval]
      cases hsign : inherited ^^ negated with
      | false => simp
      | true => simpa using v.all_admits_true_of_length_eq_one (hone hsign) hparses
  | node negated op left right ihLeft ihRight =>
      obtain ⟨hparsesLeft, hparsesRight⟩ := parses_node.mp hparses
      rw [eval, ← Bool.xor_assoc, ← Connective.join_effective, normalForm, NormalForm.eval,
        ihLeft _ hparsesLeft hone.1, ihRight _ hparsesRight hone.2]

/-- **Pushing signs down keeps the meaning.** The walk and the tree both write the normal form of a
filter, whose leaves are written with the operators that they are read by. A document that satisfies
the normal form satisfies the filter, and the other way round too if every leaf under a negative
sign has one condition. -/
theorem pushdown_preserves_meaning {q : Expr} (hbuilt : Built q) (hparses : q.Parses)
    (hlone : q ≠ leaf true []) :
    (∀ (m : Type → Type) [Monad m] [LawfulMonad m] (visit : Event → m Unit),
      q.walk visit = forM ((q.normalForm false).events 0) visit) ∧
    (∀ entries negate level, .leaf entries negate level ∈ (q.normalForm false).events 0 →
      ∃ conditions, v.ReadsLeaf entries negate conditions) ∧
    (∃ tree, q.renderTree q.depth = .ok tree ∧ (q.normalForm false).tree = .ok tree) ∧
    ((q.normalForm false).eval v = true → q.eval v = true) ∧
    ((q.normalForm false).NegatedLeaves (·.length = 1) →
      (q.normalForm false).eval v = q.eval v) := by
  have hne : (q.normalForm false).NegatedLeaves (· ≠ []) := by
    cases hempty : q.isEmpty with
    | false => exact negatedLeaves_ne_nil false hbuilt.noEmptyOperand hempty
    | true =>
        obtain ⟨negated, rfl⟩ := isEmpty_eq_true_iff.mp hempty
        cases negated with
        | false => exact fun h => nomatch h
        | true => exact absurd rfl hlone
  refine ⟨fun m _ _ visit => walk_eq q visit, ?_, ?_, ?_, ?_⟩
  · intro entries negate level hleaf
    rw [← events_eq] at hleaf
    exact v.exists_readsLeaf (hparses.of_leaf_mem_events hleaf) negate
  · obtain ⟨tree, htree⟩ := hparses.exists_treeFrom false
    refine ⟨tree, ?_, ?_⟩
    · rw [renderTree, if_neg (Nat.lt_irrefl q.depth), htree]
    · rw [← treeFrom_eq, htree]
  · intro h
    simpa using eval_of_eval_normalForm v false hparses hne h
  · intro hone
    simpa using eval_normalForm v false hparses hone

theorem pushdown_preserves_meaning_negated_pair :
    let price : Entry := ⟨"price__gt", .scalar (.number (.signed 10))⟩
    let stock : Entry := ⟨"stock__exists", .none⟩
    let q := ((ofEntries [price, stock]).or (single "tag" (.scalar (.string "new")))).negate
    let v := Valuation.ofTests fun field _ _ => field == "size"
    (Built q ∧ q.Parses ∧ q ≠ leaf true []) ∧
      ((q.normalForm false).eval v = true → q.eval v = true) := by
  intro price stock q v
  have hbuilt : Built q := .negate (.or (.ofEntries _) (.single _ _))
  have hparses : q.Parses := by
    have hprice : price.condition = .ok ⟨"price", .gt, price.value⟩ := by cbv
    have hstock : stock.condition = .ok ⟨"stock", .present, .none⟩ := by cbv
    have htag : Entry.condition ⟨"tag", .scalar (.string "new")⟩ =
        .ok ⟨"tag", .eq, .scalar (.string "new")⟩ := by cbv
    rw [Parses, show q.entries = [price, stock, ⟨"tag", .scalar (.string "new")⟩] from rfl]
    simp only [List.forall_mem_cons]
    exact ⟨⟨_, hprice⟩, ⟨_, hstock⟩, ⟨_, htag⟩, List.forall_mem_nil _⟩
  have hlone : q ≠ leaf true [] := Expr.noConfusion
  exact ⟨⟨hbuilt, hparses, hlone⟩, (pushdown_preserves_meaning v hbuilt hparses hlone).2.2.2.1⟩

/-- A document that fails one condition of a pair satisfies the negated pair, but not what is
written of it. -/
example :
    let pair := ofEntries [⟨"size", .scalar (.string "s")⟩, ⟨"stock__exists", .none⟩]
    let v := Valuation.ofTests fun field _ _ => field == "size"
    pair.negate.eval v = true ∧ (pair.negate.normalForm false).eval v = false := by
  decide

end Expr

end SearchFilter
