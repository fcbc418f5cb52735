import SearchFilter.Expr.Render
import SearchFilter.Proofs.Fault
import SearchFilter.Proofs.Operand.Word
import SearchFilter.Proofs.Text.Joined
import Mathlib

/-!
# Reading a leaf back

The text of a leaf is its conditions joined by "AND", and a condition is a field, the token of an
operator and, for most operators, an operand. Nothing marks where one of them ends but a space. Still
the conditions can be read off the text, as long as a field is a word without quotes and no string
has a quote in it: fields and operands are words, so a space ends them, and no token followed by a
space begins another token. So it does not matter what the strings spell.
-/

namespace SearchFilter

/-- A condition as it is written. -/
@[ext]
structure Clause where
  field : String
  op : Operator
  operand : Option String
  deriving DecidableEq, Repr

/-- What is written of a condition under a sign. -/
def Condition.clause (c : Condition) (negate : Bool) : Clause :=
  let op := c.op.effective negate
  { field := c.field, op, operand := if op.isExistence then none else some c.value.format }

namespace Operator

theorem eq_of_prefix_token_space {op op' : Operator}
    (h : op.token.toList ++ [' '] <+: op'.token.toList ++ [' ']) : op = op' := by
  have hall : ∀ op ∈ all, ∀ op' ∈ all,
      op.token.toList ++ [' '] <+: op'.token.toList ++ [' '] → op = op' := by decide
  exact hall op (mem_all op) op' (mem_all op') h

theorem prefix_token_append (op : Operator) {rest : List Char} (hrest : EndsWord rest) :
    op.token.toList ++ [' '] <+: op.token.toList ++ rest ++ [' '] := by
  cases rest with
  | nil => simp
  | cons c rest =>
      obtain rfl := endsWord_cons_iff.mp hrest
      exact ⟨rest ++ [' '], by simp⟩

theorem token_append_inj {op op' : Operator} {rest rest' : List Char} (hrest : EndsWord rest)
    (hrest' : EndsWord rest') (h : op.token.toList ++ rest = op'.token.toList ++ rest') :
    op = op' ∧ rest = rest' := by
  have hfirst := prefix_token_append op hrest
  have hsecond := prefix_token_append op' hrest'
  rw [h] at hfirst
  -- Both tokens begin the same text, so one of them begins the other.
  obtain rfl : op = op' := by
    rcases List.prefix_or_prefix_of_prefix hfirst hsecond with hbegins | hbegins
    · exact eq_of_prefix_token_space hbegins
    · exact (eq_of_prefix_token_space hbegins).symm
  exact ⟨rfl, List.append_cancel_left h⟩

end Operator

namespace Clause

def operandText : Option String → List Char
  | none => []
  | some operand => ' ' :: operand.toList

def text (clause : Clause) : List Char :=
  clause.field.toList ++ ' ' :: (clause.op.token.toList ++ operandText clause.operand)

/-- What makes a clause readable: its field and its operand are words, and there is an operand
unless the operator takes none. -/
structure Readable (clause : Clause) : Prop where
  field : Word false clause.field.toList
  operand : ∀ operand ∈ clause.operand, Word false operand.toList
  isSome_operand : clause.operand.isSome = !clause.op.isExistence

theorem endsWord_operandText {rest : List Char} (hrest : EndsWord rest) (operand : Option String) :
    EndsWord (operandText operand ++ rest) := by
  cases operand with
  | none => exact hrest
  | some operand => exact endsWord_cons_iff.mpr rfl

theorem operandText_append_inj {operand operand' : Option String} {rest rest' : List Char}
    (hoperand : ∀ text ∈ operand, Word false text.toList)
    (hoperand' : ∀ text ∈ operand', Word false text.toList)
    (hsome : operand.isSome = operand'.isSome) (hrest : EndsWord rest) (hrest' : EndsWord rest')
    (h : operandText operand ++ rest = operandText operand' ++ rest') :
    operand = operand' ∧ rest = rest' := by
  cases operand with
  | none =>
      cases operand' with
      | none => exact ⟨rfl, h⟩
      | some text' => cases hsome
  | some text =>
      cases operand' with
      | none => cases hsome
      | some text' =>
          obtain ⟨htext, hend⟩ := word_append_inj (hoperand text rfl) (hoperand' text' rfl)
            hrest hrest' (List.cons.inj h).2
          exact ⟨congrArg some (String.toList_inj.mp htext), hend⟩

theorem text_append_inj {first second : Clause} {rest rest' : List Char}
    (hfirst : first.Readable) (hsecond : second.Readable) (hrest : EndsWord rest)
    (hrest' : EndsWord rest') (h : first.text ++ rest = second.text ++ rest') :
    first = second ∧ rest = rest' := by
  simp only [text, List.append_assoc, List.cons_append] at h
  obtain ⟨hfield, h⟩ := word_append_inj hfirst.field hsecond.field (endsWord_cons_iff.mpr rfl)
    (endsWord_cons_iff.mpr rfl) h
  obtain ⟨hop, h⟩ := Operator.token_append_inj (endsWord_operandText hrest _)
    (endsWord_operandText hrest' _) (List.cons.inj h).2
  have hsome : first.operand.isSome = second.operand.isSome := by
    rw [hfirst.isSome_operand, hsecond.isSome_operand, hop]
  obtain ⟨hoperand, h⟩ :=
    operandText_append_inj hfirst.operand hsecond.operand hsome hrest hrest' h
  exact ⟨Clause.ext (String.toList_inj.mp hfield) hop hoperand, h⟩

/-- The separator of clauses. -/
def separator : List Char := " AND ".toList

theorem text_ne_nil (clause : Clause) : clause.text ≠ [] := by
  simp [text]

theorem endsWord_separator_append (rest : List Char) : EndsWord (separator ++ rest) :=
  endsWord_cons_iff.mpr rfl

theorem separable_text : Separable separator text Readable where
  ne_nil clause _ := clause.text_ne_nil
  append_inj hfirst hsecond h := by
    obtain ⟨hclause, hrest⟩ := text_append_inj hfirst hsecond (endsWord_separator_append _)
      (endsWord_separator_append _) h
    exact ⟨hclause, List.append_cancel_left hrest⟩

end Clause

namespace Condition

theorem toList_render (c : Condition) (negate : Bool) :
    (c.render negate).toList = (c.clause negate).text := by
  rw [render, clause, Clause.text]
  split_ifs <;> simp [Clause.operandText]

theorem readable_clause {c : Condition} (negate : Bool) (hfield : Plain c.field.toList)
    (hstrings : ∀ s ∈ c.value.strings, '"' ∉ s.toList) : (c.clause negate).Readable where
  field := hfield.word
  operand := by
    intro text htext
    rw [clause] at htext
    split_ifs at htext
    · cases htext
    · obtain rfl := Option.some.inj htext
      exact Operand.word_format hstrings
  isSome_operand := by
    rw [clause]
    split_ifs with hexistence <;> simp [hexistence]

end Condition

namespace Expr

theorem exists_renderLeaf {entries : List Entry} {conditions : List Condition}
    (hparse : entries.mapM Entry.condition = .ok conditions) (negate : Bool) :
    ∃ text, renderLeaf entries negate = .ok text := by
  rw [renderLeaf, hparse]
  exact ⟨_, rfl⟩

theorem toList_of_renderLeaf {entries : List Entry} {conditions : List Condition} {negate : Bool}
    {text : String} (hparse : entries.mapM Entry.condition = .ok conditions)
    (htext : renderLeaf entries negate = .ok text) :
    text.toList = Clause.separator.intercalate
      ((conditions.map (·.clause negate)).map Clause.text) := by
  rw [renderLeaf, hparse] at htext
  obtain rfl := Except.ok.inj htext
  rw [String.toList_intercalate, List.map_map, List.map_map]
  congr 1
  exact List.map_congr_left fun c _ => c.toList_render negate

/-- **The text determines the conditions.** Two leaves with one text, each written under a sign of
its own, have the same clauses in the same order: the same fields, the same operators and the same
texts of operands. -/
theorem renderLeaf_determines_clauses {entries entries' : List Entry}
    {conditions conditions' : List Condition} {negate negate' : Bool}
    (hparse : entries.mapM Entry.condition = .ok conditions)
    (hparse' : entries'.mapM Entry.condition = .ok conditions')
    (hfields : ∀ c ∈ conditions ++ conditions', Plain c.field.toList)
    (hstrings : ∀ c ∈ conditions ++ conditions', ∀ s ∈ c.value.strings, '"' ∉ s.toList)
    (h : renderLeaf entries negate = renderLeaf entries' negate') :
    conditions.map (·.clause negate) = conditions'.map (·.clause negate') := by
  obtain ⟨text, htext⟩ := exists_renderLeaf hparse negate
  rw [List.forall_mem_append] at hfields hstrings
  apply Clause.separable_text.eq_of_intercalate_eq
  · intro clause hclause
    obtain ⟨c, hc, rfl⟩ := List.mem_map.mp hclause
    exact c.readable_clause negate (hfields.1 c hc) (hstrings.1 c hc)
  · intro clause hclause
    obtain ⟨c, hc, rfl⟩ := List.mem_map.mp hclause
    exact c.readable_clause negate' (hfields.2 c hc) (hstrings.2 c hc)
  · rw [← toList_of_renderLeaf hparse htext, ← toList_of_renderLeaf hparse' (h ▸ htext)]

theorem renderLeaf_determines_clauses_spelled_operators :
    let title : Operand := .scalar (.string "cats AND kind NOT IN [dogs]")
    let tags : Operand := .list [.string "IN"]
    let entries : List Entry := [⟨"title", title⟩, ⟨"meta__tags__nin", tags⟩,
      ⟨"stock__exists", .scalar (.string "\"")⟩, ⟨"", .scalar (.string "")⟩]
    let entries' : List Entry := [⟨"title__neq", title⟩, ⟨"meta__tags__in", tags⟩,
      ⟨"stock__not exists", .none⟩, ⟨"__neq", .scalar (.string "")⟩]
    let conditions : List Condition := [⟨"title", .eq, title⟩, ⟨"meta.tags", .notIn, tags⟩,
      ⟨"stock", .present, .none⟩, ⟨"", .eq, .scalar (.string "")⟩]
    let conditions' : List Condition := [⟨"title", .ne, title⟩, ⟨"meta.tags", .isIn, tags⟩,
      ⟨"stock", .absent, .none⟩, ⟨"", .ne, .scalar (.string "")⟩]
    (entries.mapM Entry.condition = .ok conditions ∧
      entries'.mapM Entry.condition = .ok conditions' ∧
      (∀ c ∈ conditions ++ conditions', Plain c.field.toList) ∧
      (∀ c ∈ conditions ++ conditions', ∀ s ∈ c.value.strings, '"' ∉ s.toList) ∧
      renderLeaf entries false = renderLeaf entries' true) ∧
    conditions.map (·.clause false) = conditions'.map (·.clause true) := by
  intro title tags entries entries' conditions conditions'
  have hparse : entries.mapM Entry.condition = .ok conditions := by cbv
  have hparse' : entries'.mapM Entry.condition = .ok conditions' := by cbv
  have hfields : ∀ c ∈ conditions ++ conditions', Plain c.field.toList := by decide
  have hstrings : ∀ c ∈ conditions ++ conditions', ∀ s ∈ c.value.strings, '"' ∉ s.toList := by
    decide
  have htext : renderLeaf entries false = renderLeaf entries' true := by
    rw [renderLeaf, renderLeaf, hparse, hparse']
    cbv
  exact ⟨⟨hparse, hparse', hfields, hstrings, htext⟩,
    renderLeaf_determines_clauses hparse hparse' hfields hstrings htext⟩

end Expr

end SearchFilter
