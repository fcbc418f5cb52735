import SearchFilter.Json.Basic
import SearchFilter.Decimal.Layout

/-!
# JSON texts

The compact text of a JSON value: no blanks, and only those characters escaped that have to be.
-/

namespace SearchFilter.Json

/-- Numbers are positional from 0.00001 to below 10^16, and the digits of a tie are rounded to
even. -/
def layout : Decimal.Layout := ⟨-5, 16, .toEven⟩

def hexDigit (n : Nat) : Char :=
  if n < 10 then .ofNat ('0'.toNat + n) else .ofNat ('a'.toNat + (n - 10))

/-- A character inside a quoted text. The quote, the backslash and the control characters are
escaped. -/
def escape (c : Char) : List Char :=
  match c with
  | '"' => ['\\', '"']
  | '\\' => ['\\', '\\']
  | '\x08' => ['\\', 'b']
  | '\x0c' => ['\\', 'f']
  | '\n' => ['\\', 'n']
  | '\r' => ['\\', 'r']
  | '\t' => ['\\', 't']
  | c =>
    if c.toNat < 0x20 then ['\\', 'u', '0', '0', hexDigit (c.toNat / 16), hexDigit (c.toNat % 16)]
    else [c]

def quoted (s : String) : String :=
  String.ofList ('"' :: s.toList.flatMap escape ++ ['"'])

def bracketed (items : List String) : String :=
  "[" ++ ",".intercalate items ++ "]"

def braced (members : List String) : String :=
  "\x7b" ++ ",".intercalate members ++ "\x7d"

mutual

def text : Json → String
  | null => "null"
  | bool true => "true"
  | bool false => "false"
  | int n => toString n
  | double x => if x.isFinite then layout.text x else "null"
  | string s => quoted s
  | array items => bracketed (itemTexts items)
  | object members => braced (memberTexts members)

def itemTexts : List Json → List String
  | [] => []
  | item :: rest => item.text :: itemTexts rest

/-- The texts of the members of an object, in the given order. -/
def memberTexts : List (String × Json) → List String
  | [] => []
  | (key, value) :: rest => (quoted key ++ ":" ++ value.text) :: memberTexts rest

end

theorem itemTexts_eq_map (items : List Json) : itemTexts items = items.map text := by
  induction items with
  | nil => rfl
  | cons item rest ih => rw [itemTexts, ih, List.map_cons]

theorem memberTexts_eq_map (members : Members) :
    memberTexts members = members.map fun (key, value) => quoted key ++ ":" ++ value.text := by
  induction members with
  | nil => rfl
  | cons member rest ih => rw [memberTexts, ih, List.map_cons]

/-- The text of an object whose members stand in the given order. -/
def membersText (members : List (String × Json)) : String :=
  braced (memberTexts members)

/-- A form that data is written in, as what becomes of a string and of a sequence of items. -/
structure Format (α : Type) where
  string : String → α
  sequence : List α → α

namespace Format

def value : Format Json := ⟨.string, .array⟩

def text : Format String := ⟨quoted, bracketed⟩

end Format

end SearchFilter.Json
