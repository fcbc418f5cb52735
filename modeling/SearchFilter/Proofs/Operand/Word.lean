import SearchFilter.Operand
import Mathlib.Data.List.Basic

/-!
# Words

Filter text is read word by word, where a space between quotes ends no word. The text of an operand
is one word, whatever the operand is: a string with a space in it is quoted, a number has no room for
a space, and the items of a list are joined by commas alone. All it takes is that no string brings
quotes of its own, since nothing escapes them.
-/

namespace SearchFilter

/-- The text has no space and no quote. -/
def Plain (text : List Char) : Prop :=
  ∀ c ∈ text, c ≠ ' ' ∧ c ≠ '"'

instance (text : List Char) : Decidable (Plain text) :=
  List.decidableBAll (fun c => c ≠ ' ' ∧ c ≠ '"') text

theorem Plain.append {first second : List Char} (hfirst : Plain first) (hsecond : Plain second) :
    Plain (first ++ second) :=
  List.forall_mem_append.mpr ⟨hfirst, hsecond⟩

theorem Plain.subset {text part : List Char} (h : Plain text) (hpart : part ⊆ text) : Plain part :=
  fun c hc => h c (hpart hc)

/-- Every quote is closed, and every space stands between quotes. The text begins between quotes
itself if `quoted` holds. -/
def Word (quoted : Bool) : List Char → Prop
  | [] => quoted = false
  | c :: rest => if c = '"' then Word (!quoted) rest else (c = ' ' → quoted = true) ∧ Word quoted rest

/-- What may follow a word. -/
def EndsWord (rest : List Char) : Prop :=
  ∀ c ∈ rest.head?, c = ' '

theorem endsWord_cons_iff {c : Char} {rest : List Char} : EndsWord (c :: rest) ↔ c = ' ' := by
  simp [EndsWord]

theorem not_word_space (rest : List Char) : ¬Word false (' ' :: rest) := by
  simp [Word]

theorem Word.append {quoted : Bool} {first second : List Char} (hfirst : Word quoted first)
    (hsecond : Word false second) : Word quoted (first ++ second) := by
  induction first generalizing quoted with
  | nil =>
      obtain rfl : quoted = false := hfirst
      exact hsecond
  | cons c first ih =>
      rw [List.cons_append]
      unfold Word at hfirst ⊢
      split_ifs at hfirst ⊢ with hquote
      · exact ih hfirst
      · exact ⟨hfirst.1, ih hfirst.2⟩

theorem Plain.word {text : List Char} (h : Plain text) : Word false text := by
  induction text with
  | nil => rfl
  | cons c rest ih =>
      obtain ⟨hspace, hquote⟩ := h c List.mem_cons_self
      rw [Word, if_neg hquote]
      exact ⟨fun hc => absurd hc hspace, ih fun d hd => h d (List.mem_cons_of_mem c hd)⟩

theorem word_closing {text : List Char} (h : '"' ∉ text) : Word true (text ++ ['"']) := by
  induction text with
  | nil => simp [Word]
  | cons c rest ih =>
      rw [List.mem_cons, not_or] at h
      rw [List.cons_append, Word, if_neg (Ne.symm h.1)]
      exact ⟨fun _ => rfl, ih h.2⟩

theorem word_intercalate {words : List (List Char)} (h : ∀ word ∈ words, Word false word) :
    Word false ([','].intercalate words) := by
  induction words with
  | nil => rfl
  | cons word rest ih =>
      have hword := h word List.mem_cons_self
      cases rest with
      | nil => rwa [List.intercalate_singleton]
      | cons next rest =>
          have hcomma : Word false [','] := by simp [Word]
          rw [List.intercalate_cons_cons]
          exact (hword.append hcomma).append (ih fun other hother =>
            h other (List.mem_cons_of_mem word hother))

/-- Where a word ends is seen from the word alone. -/
theorem word_append_inj {quoted : Bool} {first second rest rest' : List Char}
    (hfirst : Word quoted first) (hsecond : Word quoted second) (hrest : EndsWord rest)
    (hrest' : EndsWord rest') (h : first ++ rest = second ++ rest') :
    first = second ∧ rest = rest' := by
  induction first generalizing quoted second with
  | nil =>
      cases second with
      | nil => exact ⟨rfl, h⟩
      | cons c second =>
          -- What follows the ended word begins with a space, which begins no word.
          obtain rfl : quoted = false := hfirst
          rw [List.nil_append] at h
          obtain rfl := endsWord_cons_iff.mp (h ▸ hrest)
          exact absurd hsecond (not_word_space second)
  | cons c first ih =>
      cases second with
      | nil =>
          obtain rfl : quoted = false := hsecond
          rw [List.nil_append] at h
          obtain rfl := endsWord_cons_iff.mp (h ▸ hrest')
          exact absurd hfirst (not_word_space first)
      | cons d second =>
          obtain ⟨rfl, htail⟩ := List.cons.inj h
          unfold Word at hfirst hsecond
          split_ifs at hfirst hsecond with hquote
          · obtain ⟨rfl, hend⟩ := ih hfirst hsecond htail
            exact ⟨rfl, hend⟩
          · obtain ⟨rfl, hend⟩ := ih hfirst.2 hsecond.2 htail
            exact ⟨rfl, hend⟩

/-! ### Numbers -/

namespace Number

theorem plain_toDigits (n : Nat) : Plain (Nat.toDigits 10 n) := by
  intro c hc
  have hdigit : c.isDigit = true := Nat.isDigit_of_mem_toDigits (by decide) (by decide) hc
  constructor
  · rintro rfl
    exact absurd hdigit (by decide)
  · rintro rfl
    exact absurd hdigit (by decide)

theorem plain_toString_nat (n : Nat) : Plain (toString n).toList := by
  rw [Nat.toString_eq_repr, Nat.toList_repr]
  exact plain_toDigits n

theorem plain_toString_int (n : Int) : Plain (toString n).toList := by
  rw [Int.toString_eq_repr, Int.repr_eq_if]
  split_ifs
  · rw [Nat.toList_repr]
    exact plain_toDigits _
  · rw [String.toList_append, Nat.toList_repr]
    exact Plain.append (by decide) (plain_toDigits _)

theorem plain_positional {digits : List Char} (h : Plain digits) (point : Int) :
    Plain (Decimal.positional digits point) := by
  have hzeros (n : Nat) : Plain (List.replicate n '0') := by
    intro c hc
    obtain rfl := List.eq_of_mem_replicate hc
    decide
  have hpoint : Plain ['.'] := by decide
  have hzeroPoint : Plain ['0', '.'] := by decide
  unfold Decimal.positional
  split_ifs
  · exact (hzeroPoint.append (hzeros _)).append h
  · exact (h.append (hzeros _)).append (by decide)
  · exact (h.subset (List.take_subset _ _)).append
      (hpoint.append (h.subset (List.drop_subset _ _)))

theorem plain_scientific {digits : List Char} (h : Plain digits) (point : Int) :
    Plain (Decimal.scientific digits point) := by
  have hpoint : Plain ['.'] := by decide
  have hpower : Plain ['e'] := by decide
  unfold Decimal.scientific
  refine ((h.subset (List.take_subset _ _)).append ?_).append
    (hpower.append (plain_toString_int _))
  split_ifs
  · decide
  · exact hpoint.append (h.subset (List.drop_subset _ _))

theorem plain_layoutText (layout : Decimal.Layout) (x : Binary64) :
    Plain (layout.text x).toList := by
  have hdigits (d : Decimal.Digits) : Plain (layout.digitsText d) := by
    dsimp only [Decimal.Layout.digitsText]
    split_ifs
    · exact plain_positional (plain_toDigits _) _
    · exact plain_scientific (plain_toDigits _) _
  rw [Decimal.Layout.text, String.toList_ofList]
  apply Plain.append
  · split_ifs <;> decide
  · split_ifs
    · decide
    · exact hdigits _

theorem plain_text (n : Number) : Plain n.text.toList := by
  cases n with
  | signed n => exact plain_toString_int n.toInt
  | unsigned n => exact plain_toString_nat n.toNat
  | double x =>
      rw [text]
      split_ifs
      · exact plain_layoutText layout x
      · decide
      · decide
      · decide

end Number

/-! ### Operands -/

namespace Scalar

def string? : Scalar → Option String
  | string s => some s
  | _ => none

theorem word_quote {text : String} (h : '"' ∉ text.toList) : Word false (quote text).toList := by
  have hclosing : (quote text).toList = '"' :: (text.toList ++ ['"']) := by simp [quote]
  rw [hclosing, Word, if_pos rfl]
  exact word_closing h

theorem word_format {s : Scalar} (h : ∀ text ∈ s.string?, '"' ∉ text.toList) :
    Word false s.format.toList := by
  cases s with
  | string text =>
      have hquote : '"' ∉ text.toList := h text rfl
      rw [format]
      split_ifs with hspace
      · exact word_quote hquote
      · refine Plain.word fun c hc => ⟨?_, ?_⟩
        · rintro rfl
          exact hspace (List.contains_iff_mem.mpr hc)
        · rintro rfl
          exact hquote hc
  | number n => exact n.plain_text.word
  | bool b => cases b <;> exact Plain.word (by decide)

/-- A text that has to be quoted because it reads as an operator holds no quote. -/
theorem quote_not_mem_of_isReserved {text : String} (h : Operator.isReserved text = true) :
    '"' ∉ text.toList := by
  rw [Operator.isReserved, Bool.or_eq_true, List.any_eq_true] at h
  rcases h with ⟨op, -, hop⟩ | halias
  · rw [Bool.or_eq_true, beq_iff_eq, beq_iff_eq] at hop
    rcases hop with rfl | rfl
    · cases op <;> decide
    · cases op <;> decide
  · rw [beq_iff_eq] at halias
    rw [halias]
    decide

theorem word_formatElement {s : Scalar} (h : ∀ text ∈ s.string?, '"' ∉ text.toList) :
    Word false s.formatElement.toList := by
  rw [formatElement]
  split_ifs with hreserved
  · exact word_quote (quote_not_mem_of_isReserved hreserved)
  · exact word_format h

end Scalar

namespace Operand

/-- The strings that an operand consists of. -/
def strings : Operand → List String
  | scalar s => s.string?.toList
  | list items => items.filterMap Scalar.string?
  | none => []

theorem toList_format_list (items : List Scalar) :
    (list items).format.toList =
      ['['] ++ [','].intercalate (items.map fun item => item.formatElement.toList) ++ [']'] := by
  simp [format, Function.comp_def]

/-- **The text of an operand is a word** unless one of its strings holds a quote. -/
theorem word_format {value : Operand} (h : ∀ s ∈ value.strings, '"' ∉ s.toList) :
    Word false value.format.toList := by
  cases value with
  | scalar s => exact Scalar.word_format (by simpa [strings] using h)
  | list items =>
      have hitems : ∀ item ∈ items, Word false item.formatElement.toList := by
        intro item hitem
        refine Scalar.word_formatElement fun text htext => h text ?_
        exact List.mem_filterMap.mpr ⟨item, hitem, htext⟩
      rw [toList_format_list]
      refine Word.append (Word.append (Plain.word (by decide)) (word_intercalate ?_))
        (Plain.word (by decide))
      simpa using hitems
  | none => rfl

end Operand

end SearchFilter
