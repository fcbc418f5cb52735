import SearchFilter.Json.Numeral

/-!
# JSON tokens

The words of a JSON text. Numbers and strings stay as they are written, so that a text can be taken
apart without a decision on what its parts are worth: a part that nobody asks for may hold half of a
surrogate pair or a number out of range.
-/

namespace SearchFilter.Json

/-- A part of a string: a character, or one 16-bit unit written in hexadecimal. -/
inductive Piece where
  | char (c : Char)
  | unit (code : Nat)
  deriving DecidableEq, Repr

inductive Token where
  | openBracket
  | closeBracket
  | openBrace
  | closeBrace
  | comma
  | colon
  | null
  | bool (b : Bool)
  | number (n : Numeral)
  | string (pieces : List Piece)
  deriving DecidableEq, Repr

/-- The four blanks that may stand between tokens. -/
def isBlank (c : Char) : Bool :=
  c == ' ' || c == '\n' || c == '\t' || c == '\r'

def isNumeralChar (c : Char) : Bool :=
  c.isDigit || c == '-' || c == '+' || c == '.' || c == 'e' || c == 'E'

def hexValue? (c : Char) : Option Nat :=
  if c.isDigit then some (c.toNat - '0'.toNat)
  else if 'a' ≤ c ∧ c ≤ 'f' then some (c.toNat - 'a'.toNat + 10)
  else if 'A' ≤ c ∧ c ≤ 'F' then some (c.toNat - 'A'.toNat + 10)
  else none

def hexUnit? (a b c d : Char) : Option Nat := do
  return 4096 * (← hexValue? a) + 256 * (← hexValue? b) + 16 * (← hexValue? c) + (← hexValue? d)

/-- The character that a letter stands for behind a backslash. -/
def unescape? : Char → Option Char
  | '"' => some '"'
  | '\\' => some '\\'
  | '/' => some '/'
  | 'b' => some '\x08'
  | 'f' => some '\x0c'
  | 'n' => some '\n'
  | 'r' => some '\r'
  | 't' => some '\t'
  | _ => none

/-- The pieces up to the closing quote, behind those already read, and what follows the quote.
Control characters have to be escaped. -/
def scanString (read : List Piece) : List Char → Option (List Piece × List Char)
  | [] => none
  | '"' :: rest => some (read.reverse, rest)
  | '\\' :: 'u' :: a :: b :: c :: d :: rest =>
    match hexUnit? a b c d with
    | some code => scanString (.unit code :: read) rest
    | none => none
  | '\\' :: e :: rest =>
    match unescape? e with
    | some c => scanString (.char c :: read) rest
    | none => none
  | c :: rest =>
    if c.toNat < 0x20 ∨ c = '\\' then none else scanString (.char c :: read) rest

theorem length_lt_of_scanString {read : List Piece} {cs : List Char}
    {result : List Piece × List Char} (h : scanString read cs = some result) :
    result.2.length < cs.length := by
  fun_induction scanString read cs with
  | case1 => simp at h
  | case2 read rest =>
      simp only [Option.some.injEq] at h
      simp [← h]
  | case3 read a b c d rest code _ ih =>
      have := ih h
      simp only [List.length_cons]
      omega
  | case4 => simp at h
  | case5 read e rest _ c _ ih =>
      have := ih h
      simp only [List.length_cons]
      omega
  | case6 => simp at h
  | case7 => simp at h
  | case8 read c rest _ _ _ _ ih =>
      have := ih h
      simp only [List.length_cons]
      omega

theorem length_dropWhile_lt (p : Char → Bool) (c : Char) (cs : List Char) :
    (cs.dropWhile p).length < (c :: cs).length := by
  have := (List.dropWhile_sublist p (l := cs)).length_le
  simp only [List.length_cons]
  omega

/-- The tokens of a text, behind those already read. -/
def scan (read : List Token) : List Char → Option (List Token)
  | [] => some read.reverse
  | '[' :: rest => scan (.openBracket :: read) rest
  | ']' :: rest => scan (.closeBracket :: read) rest
  | '\x7b' :: rest => scan (.openBrace :: read) rest
  | '\x7d' :: rest => scan (.closeBrace :: read) rest
  | ',' :: rest => scan (.comma :: read) rest
  | ':' :: rest => scan (.colon :: read) rest
  | 'n' :: 'u' :: 'l' :: 'l' :: rest => scan (.null :: read) rest
  | 't' :: 'r' :: 'u' :: 'e' :: rest => scan (.bool true :: read) rest
  | 'f' :: 'a' :: 'l' :: 's' :: 'e' :: rest => scan (.bool false :: read) rest
  | '"' :: rest =>
    match h : scanString [] rest with
    | some (pieces, rest') =>
      have := length_lt_of_scanString h
      scan (.string pieces :: read) rest'
    | none => none
  | c :: rest =>
    if isBlank c then scan read rest
    else if isNumeralChar c then
      match Numeral.ofChars? (c :: rest.takeWhile isNumeralChar) with
      | some n =>
        have := length_dropWhile_lt isNumeralChar c rest
        scan (.number n :: read) (rest.dropWhile isNumeralChar)
      | none => none
    else none
termination_by cs => cs.length
decreasing_by all_goals simp_all only [List.length_cons] <;> omega

def tokens? (text : String) : Option (List Token) :=
  scan [] text.toList

def isLeadingSurrogate (code : Nat) : Bool := 0xD800 ≤ code && code < 0xDC00

def isTrailingSurrogate (code : Nat) : Bool := 0xDC00 ≤ code && code < 0xE000

/-- The string that is made of these pieces, behind the characters already read. Surrogates have to
come in pairs. -/
def decodePieces (read : List Char) : List Piece → Option String
  | [] => some (String.ofList read.reverse)
  | .char c :: rest => decodePieces (c :: read) rest
  | .unit code :: rest =>
    if isLeadingSurrogate code then
      match rest with
      | .unit next :: rest =>
        if isTrailingSurrogate next then
          let c := Char.ofNat (0x10000 + (code - 0xD800) * 0x400 + (next - 0xDC00))
          decodePieces (c :: read) rest
        else none
      | _ => none
    else if isTrailingSurrogate code then none
    else decodePieces (.ofNat code :: read) rest

def decodeString? (pieces : List Piece) : Option String :=
  decodePieces [] pieces

end SearchFilter.Json
