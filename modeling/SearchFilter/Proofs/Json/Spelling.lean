import SearchFilter.Json.Text
import SearchFilter.Json.Token
import Mathlib.Data.List.TakeWhile
import Mathlib.Tactic.SplitIfs

/-!
# The spelling of strings and integers

A string is read from its quoted text piece by piece, and the pieces make up the string again. An
integer is written with all of its digits and no zero in front of them, so its text is a numeral,
and the numeral stands for the integer as long as 64 bits can hold it.
-/

namespace SearchFilter.Json

/-! ### Strings -/

/-- The control characters with a letter of their own behind a backslash. -/
def lettered : List Char := ['\x08', '\x0c', '\n', '\r', '\t']

/-- What is read for a character of a quoted text. -/
def piece (c : Char) : Piece :=
  if c.toNat < 0x20 ∧ c ∉ lettered then .unit c.toNat else .char c

def pieces (s : String) : List Piece :=
  s.toList.map piece

theorem hexUnit?_hexDigit {code : Nat} (h : code < 0x20) :
    hexUnit? '0' '0' (hexDigit (code / 16)) (hexDigit (code % 16)) = some code := by
  have hall : ∀ n < 0x20, hexUnit? '0' '0' (hexDigit (n / 16)) (hexDigit (n % 16)) = some n := by
    decide
  exact hall code h

theorem scanString_escape (read : List Piece) (c : Char) (rest : List Char) :
    scanString read (escape c ++ rest) = scanString (piece c :: read) rest := by
  unfold escape
  split
  case h_8 hquote hbackslash hb hf hn hr ht =>
    -- No escape has the character's name, so it is a number or the character itself.
    have hlettered : c ∉ lettered := by
      simpa only [lettered, List.mem_cons, List.not_mem_nil, or_false, not_or] using
        ⟨hb, hf, hn, hr, ht⟩
    split_ifs with hcontrol
    · have hpiece : piece c = .unit c.toNat := if_pos ⟨hcontrol, hlettered⟩
      simp [scanString, hexUnit?_hexDigit hcontrol, hpiece]
    · have hpiece : piece c = .char c := if_neg fun h => hcontrol h.1
      have hplain : ¬(c.toNat < 0x20 ∨ c = '\\') := not_or.mpr ⟨hcontrol, hbackslash⟩
      rw [List.singleton_append, scanString, if_neg hplain, hpiece]
      · exact hquote
      · exact fun _ _ _ _ _ h _ => hbackslash h
      · exact fun _ _ h _ => hbackslash h
  all_goals simp [scanString, unescape?, piece, lettered]

theorem scanString_quoted (read : List Piece) (s : String) (rest : List Char) :
    scanString read (s.toList.flatMap escape ++ '"' :: rest) =
      some (read.reverse ++ pieces s, rest) := by
  have hchars (cs : List Char) : scanString read (cs.flatMap escape ++ '"' :: rest) =
      some (read.reverse ++ cs.map piece, rest) := by
    induction cs generalizing read with
    | nil => simp [scanString]
    | cons c cs ih =>
        rw [List.flatMap_cons, List.append_assoc, scanString_escape, ih]
        simp
  exact hchars s.toList

/-- A control character is half of no pair. -/
theorem decodePieces_piece (read : List Char) (c : Char) (rest : List Piece) :
    decodePieces read (piece c :: rest) = decodePieces (c :: read) rest := by
  unfold piece
  split_ifs with h
  · have hleading : isLeadingSurrogate c.toNat = false := by
      simp only [isLeadingSurrogate, Bool.and_eq_false_iff, decide_eq_false_iff_not]
      omega
    have htrailing : isTrailingSurrogate c.toNat = false := by
      simp only [isTrailingSurrogate, Bool.and_eq_false_iff, decide_eq_false_iff_not]
      omega
    rw [decodePieces.eq_def]
    simp [hleading, htrailing]
  · rw [decodePieces]

theorem decodeString?_pieces (s : String) : decodeString? (pieces s) = some s := by
  have hchars (cs read : List Char) :
      decodePieces read (cs.map piece) = some (String.ofList (read.reverse ++ cs)) := by
    induction cs generalizing read with
    | nil => simp [decodePieces]
    | cons c cs ih =>
        rw [List.map_cons, decodePieces_piece, ih]
        simp
  rw [decodeString?, pieces, hchars]
  simp

/-! ### Integers -/

namespace Numeral

def ofInt (n : Int) : Numeral where
  negative := n < 0
  whole := Nat.toDigits 10 n.natAbs
  fraction := none
  power := none

theorem isDigit_of_mem_toDigits {n : Nat} : ∀ c ∈ Nat.toDigits 10 n, c.isDigit = true :=
  fun _ hc => Nat.isDigit_of_mem_toDigits (by decide) (by decide) hc

theorem isNumeralChar_of_isDigit {c : Char} (h : c.isDigit = true) : isNumeralChar c = true := by
  simp [isNumeralChar, h]

theorem toList_toString (n : Int) :
    (toString n).toList = (if n < 0 then ['-'] else []) ++ Nat.toDigits 10 n.natAbs := by
  rw [Int.toString_eq_repr, Int.repr_eq_if]
  split_ifs with hnonneg hneg hneg
  · omega
  · have habs : n.toNat = n.natAbs := by omega
    rw [Nat.toList_repr, List.nil_append, habs]
  · have habs : (-n).toNat = n.natAbs := by omega
    rw [String.toList_append, Nat.toList_repr, habs]
    rfl
  · omega

theorem eq_zero_of_head?_toDigits {n : Nat} (h : (Nat.toDigits 10 n).head? = some '0') : n = 0 := by
  induction n using Nat.strongRecOn with
  | ind n ih =>
      rw [Nat.toDigits_eq_if (by decide)] at h
      split_ifs at h with hsmall
      · simpa using h
      · obtain ⟨c, rest, hdigits⟩ := List.exists_cons_of_ne_nil (Nat.toDigits_ne_nil (n := n / 10))
        have hhead : (Nat.toDigits 10 (n / 10)).head? = some '0' := by
          rw [hdigits] at h ⊢
          exact h
        have hzero := ih (n / 10) (by omega) hhead
        omega

theorem takeWhole?_toDigits (n : Nat) :
    takeWhole? (Nat.toDigits 10 n) = some (Nat.toDigits 10 n, []) := by
  have hdigits : takeDigits? (Nat.toDigits 10 n) = some (Nat.toDigits 10 n, []) := by
    have hwhole := List.takeWhile_eq_self_iff.mpr (isDigit_of_mem_toDigits (n := n))
    have hrest := List.dropWhile_eq_nil_iff.mpr (isDigit_of_mem_toDigits (n := n))
    simp [takeDigits?, hwhole, hrest, Nat.toDigits_ne_nil]
  have hleading : ¬((Nat.toDigits 10 n).head? = some '0' ∧ (Nat.toDigits 10 n).length ≠ 1) := by
    rintro ⟨hhead, hlength⟩
    obtain rfl := eq_zero_of_head?_toDigits hhead
    exact hlength rfl
  simp [takeWhole?, hdigits, hleading]

theorem ofChars?_toString (n : Int) : ofChars? (toString n).toList = some (ofInt n) := by
  rw [toList_toString]
  split_ifs with hneg
  · simp [ofChars?, takeWhole?_toDigits, takeFraction?, takePower?, ofInt, hneg]
  · -- The first character is a digit, so it is not taken for a sign.
    obtain ⟨c, rest, hdigits⟩ := List.exists_cons_of_ne_nil (Nat.toDigits_ne_nil (n := n.natAbs))
    have hdigit : c.isDigit = true := isDigit_of_mem_toDigits c (hdigits ▸ List.mem_cons_self)
    have hsign : c ≠ '-' := by
      rintro rfl
      exact absurd hdigit (by decide)
    have hwhole := takeWhole?_toDigits n.natAbs
    rw [hdigits] at hwhole
    simp [ofChars?, hdigits, hsign, hwhole, takeFraction?, takePower?, ofInt, hneg]

theorem magnitude?_ofInt (n : Int) : (ofInt n).magnitude? = some n.natAbs := by
  have hvalue : Decimal.ofDigits (Nat.toDigits 10 n.natAbs) = n.natAbs :=
    Nat.ofDigitChars_toDigits (by decide) (by decide)
  rw [magnitude?, ofInt, if_pos ⟨rfl, rfl⟩, hvalue]

/-- The numeral stands for the integer as long as 64 bits can hold it, with a sign or without. -/
theorem toJson?_ofInt {n : Int} (hlow : -0x8000000000000000 ≤ n) (hhigh : n < UInt64.size) :
    (ofInt n).toJson? = some (.int n) := by
  have hsize : UInt64.size = 0x10000000000000000 := rfl
  rw [toJson?, magnitude?_ofInt, ofInt]
  simp only [decide_eq_true_eq]
  split_ifs with hneg hfits hfits
  · have hvalue : -(n.natAbs : Int) = n := by omega
    rw [hvalue]
  · omega
  · have hvalue : (n.natAbs : Int) = n := by omega
    rw [hvalue]
  · omega

theorem toUInt64?_ofInt (n : UInt64) : (ofInt n.toNat).toUInt64? = some n := by
  have hsign : (ofInt n.toNat).negative = false := by
    simp only [ofInt, decide_eq_false_iff_not]
    omega
  have hvalue : (n.toNat : Int).natAbs = n.toNat := Int.natAbs_natCast n.toNat
  rw [toUInt64?, magnitude?_ofInt, hvalue, hsign]
  simp [n.toNat_lt]

end Numeral

end SearchFilter.Json
