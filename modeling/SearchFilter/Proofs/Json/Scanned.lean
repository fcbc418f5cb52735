import SearchFilter.Proofs.Json.Content
import SearchFilter.Proofs.Json.Spelling
import SearchFilter.Proofs.Json.Tokens

/-!
# Reading a text

The text of a value is read token by token, and where a token ends is seen from the text itself,
with one exception: a number goes on for as long as there are characters of numbers. In the text of
a value a number is followed by a comma, by a bracket or by nothing, so the text is taken apart just
as it was put together.
-/

namespace SearchFilter.Json

/-! ### The written form -/

mutual

/-- How a value is written. A binary64 number is not taken into account. -/
def toWritten : Json → Written
  | null => .null
  | bool b => .bool b
  | int n => .number (.ofInt n)
  | double _ => .null
  | string s => .string (pieces s)
  | array items => .array (itemsToWritten items)
  | object members => .object (membersToWritten members)

def itemsToWritten : List Json → List Written
  | [] => []
  | item :: rest => item.toWritten :: itemsToWritten rest

def membersToWritten : List (String × Json) → List (List Piece × Written)
  | [] => []
  | (key, value) :: rest => (pieces key, value.toWritten) :: membersToWritten rest

end

theorem itemsToWritten_eq_map (items : List Json) : itemsToWritten items = items.map toWritten := by
  induction items with
  | nil => rfl
  | cons item rest ih => rw [itemsToWritten, ih, List.map_cons]

theorem membersToWritten_eq_map (members : Members) :
    membersToWritten members = members.map fun (key, value) => (pieces key, value.toWritten) := by
  induction members with
  | nil => rfl
  | cons member rest ih => rw [membersToWritten, ih, List.map_cons]

/-! ### Scanning -/

/-- What may follow a number. -/
def EndsNumber (rest : List Char) : Prop :=
  ∀ c ∈ rest.head?, isNumeralChar c = false

/-- The text is read as these tokens, whatever follows it. -/
def Scans (text : List Char) (tokens : List Token) : Prop :=
  ∀ read rest, EndsNumber rest → scan read (text ++ rest) = scan (tokens.reverse ++ read) rest

/-- The character is a token of its own. -/
def IsMark (c : Char) (token : Token) : Prop :=
  isNumeralChar c = false ∧ ∀ read rest, scan read (c :: rest) = scan (token :: read) rest

theorem isMark_openBracket : IsMark '[' .openBracket := ⟨rfl, fun _ _ => by rw [scan]⟩

theorem isMark_closeBracket : IsMark ']' .closeBracket := ⟨rfl, fun _ _ => by rw [scan]⟩

theorem isMark_openBrace : IsMark '\x7b' .openBrace := ⟨rfl, fun _ _ => by rw [scan]⟩

theorem isMark_closeBrace : IsMark '\x7d' .closeBrace := ⟨rfl, fun _ _ => by rw [scan]⟩

theorem isMark_comma : IsMark ',' .comma := ⟨rfl, fun _ _ => by rw [scan]⟩

theorem isMark_colon : IsMark ':' .colon := ⟨rfl, fun _ _ => by rw [scan]⟩

section Scans

variable {text rest : List Char} {tokens more : List Token} {c : Char} {token : Token}

theorem Scans.cons (hmark : IsMark c token) (h : Scans text tokens) :
    Scans (c :: text) (token :: tokens) := by
  intro read rest hrest
  rw [List.cons_append, hmark.2, h _ _ hrest]
  simp

theorem Scans.nil : Scans [] [] := fun _ _ _ => rfl

/-- Behind a text there may stand a mark and what follows the mark. -/
theorem Scans.append (h : Scans text tokens) (hmark : IsMark c token) (hrest : Scans rest more) :
    Scans (text ++ c :: rest) (tokens ++ token :: more) := by
  intro read rest' hrest'
  have hends : EndsNumber (c :: (rest ++ rest')) := by
    simpa [EndsNumber] using hmark.1
  rw [List.append_assoc, List.cons_append, h _ _ hends, hmark.2, hrest _ _ hrest']
  simp

theorem Scans.enclosed {opening closing : Char} {first last : Token}
    (hopening : IsMark opening first) (hclosing : IsMark closing last) (h : Scans text tokens) :
    Scans (opening :: (text ++ [closing])) (first :: (tokens ++ [last])) :=
  .cons hopening (h.append hclosing .nil)

theorem scans_intercalate {α : Type} {texts : α → List Char} {tokens : α → List Token}
    {parts : List α} (h : ∀ part ∈ parts, Scans (texts part) (tokens part)) :
    Scans ([','].intercalate (parts.map texts)) (Written.separated (parts.map tokens)) := by
  induction parts with
  | nil => exact .nil
  | cons part parts ih =>
      obtain ⟨hpart, hparts⟩ := List.forall_mem_cons.mp h
      cases parts with
      | nil =>
          rw [List.map_singleton, List.map_singleton, List.intercalate_singleton,
            Written.separated_singleton]
          exact hpart
      | cons next parts =>
          have hlater := ih hparts
          rw [List.map_cons, List.map_cons, List.intercalate_cons_cons, List.map_cons,
            List.map_cons, Written.separated_cons_cons, List.append_assoc, List.singleton_append]
          exact hpart.append isMark_comma hlater

end Scans

/-! ### Numbers and strings -/

theorem scans_number {text : List Char} {n : Numeral} (hne : text ≠ [])
    (hchars : ∀ c ∈ text, isNumeralChar c = true) (hread : Numeral.ofChars? text = some n) :
    Scans text [.number n] := by
  intro read rest hrest
  obtain ⟨c, text, rfl⟩ := List.exists_cons_of_ne_nil hne
  obtain ⟨hc, htext⟩ := List.forall_mem_cons.mp hchars
  have hmark (d : Char) (hd : isNumeralChar d = false) : c ≠ d := by
    rintro rfl
    rw [hc] at hd
    cases hd
  have hblank : isBlank c = false := by
    simp [isBlank, hmark ' ' rfl, hmark '\n' rfl, hmark '\t' rfl, hmark '\r' rfl]
  have hrestTake : rest.takeWhile isNumeralChar = [] ∧ rest.dropWhile isNumeralChar = rest := by
    cases rest with
    | nil => exact ⟨rfl, rfl⟩
    | cons d rest =>
        have hd : isNumeralChar d = false := hrest d rfl
        exact ⟨List.takeWhile_cons_of_neg (by simp [hd]), List.dropWhile_cons_of_neg (by simp [hd])⟩
  have htake : (text ++ rest).takeWhile isNumeralChar = text := by
    rw [List.takeWhile_append_of_pos htext, hrestTake.1, List.append_nil]
  have hdrop : (text ++ rest).dropWhile isNumeralChar = rest := by
    rw [List.dropWhile_append_of_pos htext, hrestTake.2]
  rw [List.cons_append, scan]
  · rw [hblank, hc, htake, hread]
    exact congrArg (scan (.number n :: read)) hdrop
  -- What begins a number is neither a mark nor the first character of a word or a string.
  all_goals first | exact hmark _ rfl | exact fun _ h _ => hmark _ rfl h

theorem scans_int (n : Int) : Scans (toString n).toList [.number (.ofInt n)] := by
  refine scans_number ?_ ?_ (Numeral.ofChars?_toString n)
  · rw [Numeral.toList_toString]
    exact List.append_ne_nil_of_right_ne_nil _ Nat.toDigits_ne_nil
  · rw [Numeral.toList_toString, List.forall_mem_append]
    constructor
    · split_ifs
      · exact List.forall_mem_singleton.mpr rfl
      · exact List.forall_mem_nil _
    · exact fun c hc => Numeral.isNumeralChar_of_isDigit (Numeral.isDigit_of_mem_toDigits c hc)

theorem scans_quoted (s : String) : Scans (quoted s).toList [.string (pieces s)] := by
  intro read rest _
  have hstring : scanString [] (s.toList.flatMap escape ++ '"' :: rest) = some (pieces s, rest) :=
    scanString_quoted [] s rest
  rw [quoted, String.toList_ofList, List.append_assoc, List.cons_append, List.singleton_append,
    scan]
  split
  · next read' rest' h =>
      rw [hstring] at h
      cases h
      rfl
  · next h =>
      rw [hstring] at h
      cases h

theorem scans_null : Scans (text null).toList [.null] := by
  intro read rest _
  have htext : (text null).toList = ['n', 'u', 'l', 'l'] := by decide
  simp [htext, scan]

theorem scans_bool (b : Bool) : Scans (text (.bool b)).toList [.bool b] := by
  intro read rest _
  cases b with
  | true =>
      have htext : (text (.bool true)).toList = ['t', 'r', 'u', 'e'] := by decide
      simp [htext, scan]
  | false =>
      have htext : (text (.bool false)).toList = ['f', 'a', 'l', 's', 'e'] := by decide
      simp [htext, scan]

/-! ### Values -/

theorem toList_bracketed (items : List String) :
    (bracketed items).toList = '[' :: ([','].intercalate (items.map String.toList) ++ [']']) := by
  simp [bracketed]

theorem toList_braced (members : List String) :
    (braced members).toList =
      '\x7b' :: ([','].intercalate (members.map String.toList) ++ ['\x7d']) := by
  simp [braced]

theorem scans_text {value : Json} (h : value.Whole) :
    Scans value.text.toList value.toWritten.tokens := by
  induction value using Json.induction with
  | null => exact scans_null
  | bool b => exact scans_bool b
  | int n => exact scans_int n
  | double x => exact absurd (.self _) (h.double x)
  | string s => exact scans_quoted s
  | array items ih =>
      have hitems : ∀ item ∈ items, Scans item.text.toList item.toWritten.tokens :=
        fun item hitem => ih item hitem (Whole.array_iff.mp h item hitem)
      rw [text, itemTexts_eq_map, toList_bracketed, List.map_map, toWritten,
        itemsToWritten_eq_map, Written.tokens, Written.itemTokens_eq_map, List.map_map]
      exact (scans_intercalate hitems).enclosed isMark_openBracket isMark_closeBracket
  | object members ih =>
      have hmembers : ∀ member ∈ members,
          Scans (quoted member.1 ++ ":" ++ member.2.text).toList
            (.string (pieces member.1) :: .colon :: member.2.toWritten.tokens) := by
        intro member hmember
        have hvalue := ih member hmember (Whole.object_iff.mp h member hmember)
        have hkeyed := (scans_quoted member.1).append isMark_colon hvalue
        simpa using hkeyed
      rw [text, memberTexts_eq_map, toList_braced, List.map_map, toWritten,
        membersToWritten_eq_map, Written.tokens, Written.memberTokens_eq_map, List.map_map]
      exact (scans_intercalate hmembers).enclosed isMark_openBrace isMark_closeBrace

/-- **A text is read as it was written.** The text of a value without binary64 numbers is taken
apart into its written form. -/
theorem Written.read?_text {value : Json} (h : value.Whole) :
    Written.read? value.text = some value.toWritten := by
  have hscan := scans_text h [] [] (by simp [EndsNumber])
  rw [List.append_nil, List.append_nil, scan, List.reverse_reverse] at hscan
  rw [Written.read?, tokens?, hscan]
  exact Written.ofTokens?_tokens value.toWritten

end SearchFilter.Json
