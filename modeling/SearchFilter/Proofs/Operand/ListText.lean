import SearchFilter.Proofs.Operand.Word
import SearchFilter.Proofs.Text.Joined

/-!
# Reading a list back

The items of a list stand between commas, and a string with a comma in it is mistaken for two items
unless it is quoted for a space. There is no other way to mistake one list for another: an item is
either quoted, whether for a space or because it reads as an operator, or stands bare, and which of
the two is seen from its first character. Quoting also keeps every item apart from the operators,
since no suffix and no token has a quote in it.
-/

namespace SearchFilter

/-- Reserved is what names an operator, as a suffix in a key or as a token in filter text. -/
theorem Operator.isReserved_iff {text : String} :
    isReserved text = true ↔
      (∃ op, ofSuffix? text = some op) ∨ ∃ op : Operator, op.token = text := by
  constructor
  · intro h
    rw [isReserved, Bool.or_eq_true, List.any_eq_true] at h
    rcases h with ⟨op, -, hop⟩ | halias
    · rw [Bool.or_eq_true, beq_iff_eq, beq_iff_eq] at hop
      rcases hop with rfl | htoken
      · exact .inl ⟨op, ofSuffix?_suffix op⟩
      · exact .inr ⟨op, htoken⟩
    · rw [beq_iff_eq] at halias
      exact .inl ⟨.absent, halias ▸ rfl⟩
  · rintro (⟨op, hsuffix⟩ | ⟨op, rfl⟩)
    · unfold ofSuffix? at hsuffix
      split at hsuffix
      case h_12 => cases hsuffix
      all_goals decide
    · cases op <;> decide

namespace Scalar

theorem mem_quote (text : String) : '"' ∈ (quote text).toList := by
  simp [quote]

theorem isReserved_quote (text : String) : Operator.isReserved (quote text) = false := by
  by_contra h
  exact quote_not_mem_of_isReserved (Bool.not_eq_false _ ▸ h) (mem_quote text)

theorem isReserved_formatElement (s : Scalar) : Operator.isReserved s.formatElement = false := by
  rw [formatElement]
  split_ifs with hreserved
  · exact isReserved_quote s.format
  · simpa using hreserved

/-! ### Items -/

/-- What a string needs to be read back from a list. -/
def Listable (s : String) : Prop :=
  s ≠ "" ∧ '"' ∉ s.toList ∧ (',' ∈ s.toList → ' ' ∈ s.toList)

instance : DecidablePred Listable :=
  fun s => inferInstanceAs (Decidable (s ≠ "" ∧ '"' ∉ s.toList ∧ (',' ∈ s.toList → ' ' ∈ s.toList)))

/-- How the characters of a string stand in a list. -/
inductive Item (s : List Char) : List Char → Prop where
  | quoted : Item s ('"' :: (s ++ ['"']))
  | bare (hcomma : ',' ∉ s) : Item s s

theorem item_formatElement {s : String} (hcomma : ',' ∈ s.toList → ' ' ∈ s.toList) :
    Item s.toList (string s).formatElement.toList := by
  have hquote : Item s.toList (quote s).toList := by
    have hchars : (quote s).toList = '"' :: (s.toList ++ ['"']) := by simp [quote]
    rw [hchars]
    exact .quoted
  by_cases hspace : ' ' ∈ s.toList
  · have hformat : (string s).format = quote s := by simp [format, hspace]
    simpa [formatElement, hformat, isReserved_quote] using hquote
  · have hformat : (string s).format = s := by simp [format, hspace]
    rw [formatElement, hformat]
    split_ifs
    · exact hquote
    · exact .bare fun h => hspace (hcomma h)

theorem append_ne_quote_cons {s : List Char} (hs : s ≠ []) (hquote : '"' ∉ s)
    (rest rest' : List Char) : s ++ rest ≠ '"' :: rest' := by
  cases s with
  | nil => exact absurd rfl hs
  | cons c tail =>
      intro h
      exact hquote ((List.cons.inj h).1 ▸ List.mem_cons_self)

theorem Item.ne_nil {s text : List Char} (hs : s ≠ []) (hitem : Item s text) : text ≠ [] := by
  cases hitem with
  | quoted => exact List.cons_ne_nil _ _
  | bare => exact hs

theorem Item.append_inj {s s' text text' rest rest' : List Char} (hs : s ≠ []) (hs' : s' ≠ [])
    (hquote : '"' ∉ s) (hquote' : '"' ∉ s') (hitem : Item s text) (hitem' : Item s' text')
    (h : text ++ ',' :: rest = text' ++ ',' :: rest') : s = s' ∧ rest = rest' := by
  cases hitem with
  | quoted =>
      cases hitem' with
      | quoted =>
          simp only [List.cons_append, List.append_assoc, List.nil_append] at h
          obtain ⟨hbody, hend⟩ := append_cons_inj hquote hquote' (List.cons.inj h).2
          exact ⟨hbody, (List.cons.inj hend).2⟩
      | bare => exact absurd h.symm (append_ne_quote_cons hs' hquote' _ _)
  | bare hcomma =>
      cases hitem' with
      | quoted => exact absurd h (append_ne_quote_cons hs hquote _ _)
      | bare hcomma' => exact append_cons_inj hcomma hcomma' h

theorem separable_formatElement :
    Separable [','] (fun s => (string s).formatElement.toList) Listable where
  ne_nil := by
    rintro s ⟨hs, -, hcomma⟩
    exact (item_formatElement hcomma).ne_nil (by simpa using hs)
  append_inj := by
    rintro s s' rest rest' ⟨hs, hquote, hcomma⟩ ⟨hs', hquote', hcomma'⟩ h
    obtain ⟨hchars, hrest⟩ := Item.append_inj (by simpa using hs) (by simpa using hs') hquote
      hquote' (item_formatElement hcomma) (item_formatElement hcomma') h
    exact ⟨String.toList_inj.mp hchars, hrest⟩

end Scalar

namespace Operand

/-- **The text of a list determines its strings,** if none of them is empty or has a quote in it, or
a comma without a space. And no item, of whatever type, is the suffix or the token of an operator. -/
theorem list_text_determines_strings :
    (∀ xs ys : List String, (∀ s ∈ xs ++ ys, Scalar.Listable s) →
      ((list (xs.map .string)).format = (list (ys.map .string)).format ↔ xs = ys)) ∧
    ∀ s : Scalar, Operator.ofSuffix? s.formatElement = Option.none ∧
      ∀ op : Operator, op.token ≠ s.formatElement := by
  constructor
  · intro xs ys hlistable
    rw [List.forall_mem_append] at hlistable
    constructor
    · intro h
      have hchars := congrArg String.toList h
      rw [toList_format_list, toList_format_list, List.append_cancel_right_eq,
        List.append_cancel_left_eq, List.map_map, List.map_map] at hchars
      exact Scalar.separable_formatElement.eq_of_intercalate_eq hlistable.1 hlistable.2 hchars
    · rintro rfl
      rfl
  · intro s
    have hreserved := s.isReserved_formatElement
    rw [← Bool.not_eq_true, Operator.isReserved_iff, not_or, not_exists, not_exists] at hreserved
    exact ⟨Option.eq_none_iff_forall_ne_some.mpr hreserved.1, hreserved.2⟩

theorem list_text_determines_strings_quoted_comma :
    let xs := ["a, b", "IN", "]["]
    let ys := ["a", "b", "IN", "]["]
    (∀ s ∈ xs ++ ys, Scalar.Listable s) ∧
      (list (xs.map .string)).format ≠ (list (ys.map .string)).format ∧
      Operator.ofSuffix? (Scalar.string "not exists").formatElement = Option.none := by
  intro xs ys
  have hlistable : ∀ s ∈ xs ++ ys, Scalar.Listable s := by decide
  refine ⟨hlistable, ?_, (list_text_determines_strings.2 _).1⟩
  exact ((list_text_determines_strings.1 xs ys hlistable).not).mpr (by decide)

end Operand

end SearchFilter
