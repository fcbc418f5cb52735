import SearchFilter.Proofs.Expr.Entries
import SearchFilter.Proofs.Expr.NormalForm
import SearchFilter.Proofs.Text.Joined
import SearchFilter.Proofs.Text.Lines

/-!
# Reading a description back

The description of a filter has a line for every condition, a line that opens each node and a line
between its operands, but none where an operand ends. Still it determines the outline of the filter:
how its nodes nest, which connective each of them stands for, and what is said of each leaf. A leaf
goes on until a line that describes no condition, and the second operand of a node begins after the
line with the connective, which is the first that neither opens a node nor belongs to one within the
first operand. All it takes is that nothing in the filter breaks a line.
-/

namespace SearchFilter

/-- A filter with its signs pushed down and its conditions described. -/
inductive Outline where
  | leaf (descriptions : List String)
  | group (op : Connective) (left right : Outline)
  deriving DecidableEq, Repr

/-- The line is the description of a condition. -/
def DescriptionLine (line : String) : Prop :=
  line.toList.head? = some 'f' ∧ '\n' ∉ line.toList

/-- What follows a block does not continue it: it is nothing, or a connective comes next. -/
def EndsBlock (rest : List String) : Prop :=
  ∀ line ∈ rest.head?, ∃ (level : Nat) (op : Connective), line = Expr.indent level op.token

theorem DescriptionLine.flush {line : String} (h : DescriptionLine line) : Flush line :=
  ⟨h.2, by rw [h.1]; decide⟩

theorem Connective.flush_token (op : Connective) : Flush op.token := by
  cases op <;> decide

theorem Connective.token_injective : Function.Injective Connective.token := by
  intro op op' h
  cases op <;> cases op' <;> simp_all [Connective.token]

theorem endsBlock_nil : EndsBlock [] := by
  simp [EndsBlock]

theorem endsBlock_token (level : Nat) (op : Connective) (rest : List String) :
    EndsBlock (Expr.indent level op.token :: rest) := by
  intro line hline
  obtain rfl := Option.some.inj hline
  exact ⟨level, op, rfl⟩

theorem separable_line :
    Separable "\n".toList String.toList fun line => line ≠ "" ∧ '\n' ∉ line.toList where
  ne_nil line h := by simpa using h.1
  append_inj hfirst hsecond h := by
    obtain ⟨hline, hrest⟩ := append_cons_inj hfirst.2 hsecond.2 h
    exact ⟨String.toList_inj.mp hline, hrest⟩

namespace Outline

open SearchFilter.Expr

def lines (level : Nat) : Outline → List String
  | leaf descriptions => descriptions.map (indent level)
  | group op left right =>
    indent level "BEGIN" :: left.lines (level + 1) ++ indent level op.token ::
      right.lines (level + 1)

/-- What is said of each leaf is said on lines of their own. -/
def Readable : Outline → Prop
  | leaf descriptions => ∀ line ∈ descriptions, DescriptionLine line
  | group _ left right => left.Readable ∧ right.Readable

theorem eq_of_indent_eq {level level' : Nat} {line line' : String} (hline : Flush line)
    (hline' : Flush line') (h : indent level line = indent level' line') : line = line' := by
  rw [← unindented_indent level hline, h, unindented_indent level' hline']

theorem not_endsBlock_description {level : Nat} {line : String} (hline : DescriptionLine line)
    (rest : List String) : ¬EndsBlock (indent level line :: rest) := by
  intro hrest
  obtain ⟨level', op, hop⟩ := hrest _ rfl
  obtain rfl := eq_of_indent_eq hline.flush op.flush_token hop
  have hhead := hline.1
  cases op <;> exact absurd hhead (by decide)

theorem not_endsBlock_begin (level : Nat) (rest : List String) :
    ¬EndsBlock (indent level "BEGIN" :: rest) := by
  intro hrest
  obtain ⟨level', op, hop⟩ := hrest _ rfl
  have hbegin := eq_of_indent_eq (by decide) op.flush_token hop
  cases op <;> exact absurd hbegin (by decide)

theorem descriptions_append_inj {level : Nat} {first second rest rest' : List String}
    (hfirst : ∀ line ∈ first, DescriptionLine line)
    (hsecond : ∀ line ∈ second, DescriptionLine line) (hrest : EndsBlock rest)
    (hrest' : EndsBlock rest')
    (h : first.map (indent level) ++ rest = second.map (indent level) ++ rest') :
    first = second ∧ rest = rest' := by
  induction first generalizing second with
  | nil =>
      cases second with
      | nil => exact ⟨rfl, h⟩
      | cons line second =>
          rw [List.map_nil, List.nil_append] at h
          exact absurd (h ▸ hrest)
            (not_endsBlock_description (hsecond line List.mem_cons_self) _)
  | cons line first ih =>
      cases second with
      | nil =>
          rw [List.map_nil, List.nil_append] at h
          exact absurd (h ▸ hrest')
            (not_endsBlock_description (hfirst line List.mem_cons_self) _)
      | cons line' second =>
          rw [List.forall_mem_cons] at hfirst hsecond
          obtain ⟨hline, htail⟩ := List.cons.inj h
          obtain ⟨rfl, hend⟩ := ih hfirst.2 hsecond.2 htail
          exact ⟨by rw [eq_of_indent_eq hfirst.1.flush hsecond.1.flush hline], hend⟩

theorem leaf_ne_group {level : Nat} {descriptions rest : List String}
    (hleaf : ∀ line ∈ descriptions, DescriptionLine line) (hrest : EndsBlock rest)
    (op : Connective) (left right : Outline) (rest' : List String) :
    (leaf descriptions).lines level ++ rest ≠ (group op left right).lines level ++ rest' := by
  intro h
  cases descriptions with
  | nil =>
      -- A leaf without conditions has no lines, so its end would be where the node is opened.
      have hrestEq : rest = (group op left right).lines level ++ rest' := h
      rw [hrestEq] at hrest
      exact not_endsBlock_begin level _ hrest
  | cons line descriptions =>
      have hline := hleaf line List.mem_cons_self
      have hbegin := eq_of_indent_eq hline.flush (by decide) (List.cons.inj h).1
      have hhead := hline.1
      rw [hbegin] at hhead
      exact absurd hhead (by decide)

/-- A block is determined by its lines, whatever follows it that does not continue it. -/
theorem lines_append_inj {level : Nat} {first second : Outline} {rest rest' : List String}
    (hfirst : first.Readable) (hsecond : second.Readable) (hrest : EndsBlock rest)
    (hrest' : EndsBlock rest') (h : first.lines level ++ rest = second.lines level ++ rest') :
    first = second ∧ rest = rest' := by
  induction first generalizing level second rest rest' with
  | leaf descriptions =>
      cases second with
      | leaf descriptions' =>
          obtain ⟨rfl, hend⟩ := descriptions_append_inj hfirst hsecond hrest hrest' h
          exact ⟨rfl, hend⟩
      | group op left right => exact absurd h (leaf_ne_group hfirst hrest op left right rest')
  | group op left right ihLeft ihRight =>
      cases second with
      | leaf descriptions' =>
          exact absurd h.symm (leaf_ne_group hsecond hrest' op left right rest)
      | group op' left' right' =>
          simp only [lines, List.cons_append, List.append_assoc] at h
          -- The first operand is followed by the connective, which does not continue it.
          obtain ⟨hleft, hmiddle⟩ := ihLeft hfirst.1 hsecond.1 (endsBlock_token level op _)
            (endsBlock_token level op' _) (List.cons.inj h).2
          obtain ⟨hline, htail⟩ := List.cons.inj hmiddle
          obtain ⟨hright, hend⟩ := ihRight hfirst.2 hsecond.2 hrest hrest' htail
          have hop := Connective.token_injective
            (eq_of_indent_eq op.flush_token op'.flush_token hline)
          exact ⟨by rw [hleft, hop, hright], hend⟩

theorem lines_own_line {outline : Outline} (h : outline.Readable) (level : Nat) :
    ∀ line ∈ outline.lines level, line ≠ "" ∧ '\n' ∉ line.toList := by
  have hflush {word : String} (level : Nat) (hword : Flush word) (hne : word ≠ "") :
      indent level word ≠ "" ∧ '\n' ∉ (indent level word).toList := by
    refine ⟨fun hempty => hne ?_, not_mem_toList_indent hword.1⟩
    rw [← unindented_indent level hword, hempty]
    rfl
  induction outline generalizing level with
  | leaf descriptions =>
      rw [lines, List.forall_mem_map]
      intro line hline
      refine hflush level (h line hline).flush ?_
      rintro rfl
      exact absurd (h _ hline).1 (by decide)
  | group op left right ihLeft ihRight =>
      have hop : op.token ≠ "" := by cases op <;> decide
      simp only [lines, List.forall_mem_append, List.forall_mem_cons]
      exact ⟨⟨hflush level (by decide) (by decide), ihLeft h.1 _⟩,
        hflush level op.flush_token hop, ihRight h.2 _⟩

end Outline

namespace Condition

theorem descriptionLine_explain {c : Condition} (negate : Bool) (hfield : '\n' ∉ c.field.toList)
    (hvalue : '\n' ∉ c.value.format.toList) : DescriptionLine (c.explain negate) := by
  have hop : '\n' ∉ (c.op.effective negate).describe.toList := by
    cases c.op.effective negate <;> decide
  rw [explain]
  split_ifs
  · constructor
    · simp
    · simp [hfield, hop]
  · constructor
    · simp
    · simp [hfield, hop, hvalue]

end Condition

namespace Expr

/-- The outline of a filter under the sign that it inherits. -/
def outline (inherited : Bool) : Expr → Except Error Outline
  | leaf negated entries => do
    let conditions ← entries.mapM Entry.condition
    return .leaf (conditions.map (·.explain (inherited ^^ negated)))
  | node negated op left right => do
    let negate := inherited ^^ negated
    let left ← left.outline negate
    let right ← right.outline negate
    return .group (op.effective negate) left right

/-- No field and no operand of the filter has a line break in it. -/
def Unbroken (q : Expr) : Prop :=
  ∀ entry ∈ q.entries, ∀ c, Condition.parse entry.key entry.value = .ok c →
    '\n' ∉ c.field.toList ∧ '\n' ∉ c.value.format.toList

theorem unbroken_iff {q : Expr} {conditions : List Condition}
    (hparse : q.entries.mapM Entry.condition = .ok conditions) :
    q.Unbroken ↔ ∀ c ∈ conditions, '\n' ∉ c.field.toList ∧ '\n' ∉ c.value.format.toList := by
  simp only [mem_iff_of_mapM_eq_ok hparse]
  constructor
  · rintro h c ⟨entry, hentry, hc⟩
    exact h entry hentry c hc
  · intro h entry hentry c hc
    exact h c ⟨entry, hentry, hc⟩

theorem emit_explainEvent (q : Expr) (inherited : Bool) (level : Nat) :
    emit explainEvent (q.events inherited level) = (·.lines level) <$> q.outline inherited := by
  induction q generalizing inherited level with
  | leaf negated entries =>
      have hlines (conditions : List Condition) :
          (Outline.leaf (conditions.map (·.explain (inherited ^^ negated)))).lines level =
            conditions.map fun c => indent level (c.explain (inherited ^^ negated)) := by
        rw [Outline.lines, List.map_map]
        rfl
      simp [events, emit_cons, emit_nil, explainEvent, outline, hlines, monad_norm]
  | node negated op left right ihLeft ihRight =>
      calc emit explainEvent ((node negated op left right).events inherited level)
          = (do
              let left ← emit explainEvent (left.events (inherited ^^ negated) (level + 1))
              let right ← emit explainEvent (right.events (inherited ^^ negated) (level + 1))
              return indent level "BEGIN" :: left ++
                indent level (op.effective (inherited ^^ negated)).token :: right) := by
            simp [events, emit_append, emit_cons, emit_nil, explainEvent, monad_norm]
        _ = (do
              let left ← (·.lines (level + 1)) <$> left.outline (inherited ^^ negated)
              let right ← (·.lines (level + 1)) <$> right.outline (inherited ^^ negated)
              return indent level "BEGIN" :: left ++
                indent level (op.effective (inherited ^^ negated)).token :: right) := by
            rw [ihLeft, ihRight]
        _ = (·.lines level) <$> (node negated op left right).outline inherited := by
            simp [outline, Outline.lines, monad_norm]

theorem explain_eq (q : Expr) :
    q.explain = (fun outline => "\n".intercalate (outline.lines 0)) <$> q.outline false := by
  rw [explain, collect_eq, ← events_eq, emit_explainEvent, Functor.map_map]

theorem readable_outline {q : Expr} {inherited : Bool} {outline : Outline} (h : q.Unbroken)
    (houtline : q.outline inherited = .ok outline) : outline.Readable := by
  induction q generalizing inherited outline with
  | leaf negated entries =>
      obtain ⟨conditions, hparse, hleaf⟩ := bind_eq_ok_iff.mp houtline
      obtain rfl := Except.ok.inj hleaf
      rw [Outline.Readable, List.forall_mem_map]
      intro c hc
      have hunbroken := (unbroken_iff (q := leaf negated entries) hparse).mp h
      obtain ⟨hfield, hvalue⟩ := hunbroken c hc
      exact c.descriptionLine_explain _ hfield hvalue
  | node negated op left right ihLeft ihRight =>
      obtain ⟨leftOutline, hleft, houtline⟩ := bind_eq_ok_iff.mp houtline
      obtain ⟨rightOutline, hright, hgroup⟩ := bind_eq_ok_iff.mp houtline
      obtain rfl := Except.ok.inj hgroup
      simp only [Unbroken, entries, List.forall_mem_append] at h
      exact ⟨ihLeft h.1 hleft, ihRight h.2 hright⟩

/-- **The description determines the outline.** Two filters with one description nest alike, have
the same connective to be written at each node, and say the same of each leaf, if none of their
fields and operands breaks a line. -/
theorem explain_determines_outline {a b : Expr} {text : String} (ha : a.explain = .ok text)
    (hb : b.explain = .ok text) (haLines : a.Unbroken) (hbLines : b.Unbroken) :
    ∃ outline, a.outline false = .ok outline ∧ b.outline false = .ok outline := by
  rw [explain_eq] at ha hb
  obtain ⟨outline, houtline, htext⟩ := map_eq_ok_iff.mp ha
  obtain ⟨outline', houtline', htext'⟩ := map_eq_ok_iff.mp hb
  have hreadable := readable_outline haLines houtline
  have hreadable' := readable_outline hbLines houtline'
  have hlines : outline.lines 0 = outline'.lines 0 := by
    apply separable_line.eq_of_intercalate_eq (Outline.lines_own_line hreadable 0)
      (Outline.lines_own_line hreadable' 0)
    rw [← String.toList_intercalate, ← String.toList_intercalate, htext, htext']
  obtain ⟨rfl, -⟩ := Outline.lines_append_inj hreadable hreadable' endsBlock_nil endsBlock_nil
    (congrArg (· ++ []) hlines)
  exact ⟨outline, houtline, houtline'⟩

theorem explain_determines_outline_signed :
    let age : Operand := .scalar (.number (.signed 9))
    let kind : Operand := .scalar (.string "OR")
    let a := ((ofEntries [⟨"age__gte", age⟩, ⟨"tag__not exists", kind⟩]).or
      (single "kind__neq" kind)).negate
    let b := (ofEntries [⟨"age__lt", age⟩, ⟨"tag__exists", .none⟩]).and (single "kind" kind)
    let text := "BEGIN\n    field \"age\": is less than 9\n    field \"tag\": exists\n" ++
      "AND\n    field \"kind\": is equal to OR"
    (a.explain = .ok text ∧ b.explain = .ok text ∧ a.Unbroken ∧ b.Unbroken) ∧
      ∃ outline, a.outline false = .ok outline ∧ b.outline false = .ok outline := by
  intro age kind a b text
  have ha : a.explain = .ok text := by cbv
  have hb : b.explain = .ok text := by cbv
  have haParse : a.entries.mapM Entry.condition =
      .ok [⟨"age", .ge, age⟩, ⟨"tag", .absent, .none⟩, ⟨"kind", .ne, kind⟩] := by cbv
  have hbParse : b.entries.mapM Entry.condition =
      .ok [⟨"age", .lt, age⟩, ⟨"tag", .present, .none⟩, ⟨"kind", .eq, kind⟩] := by cbv
  have haLines : a.Unbroken := (unbroken_iff haParse).mpr (by decide)
  have hbLines : b.Unbroken := (unbroken_iff hbParse).mpr (by decide)
  exact ⟨⟨ha, hb, haLines, hbLines⟩, explain_determines_outline ha hb haLines hbLines⟩

end Expr

end SearchFilter
