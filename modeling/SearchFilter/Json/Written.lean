import SearchFilter.Json.Token

/-!
# Written JSON values

A JSON value whose numbers and strings are still as they are written. It is built from tokens by a
machine with a stack of open arrays and objects, so that its nesting is not limited. What a part of
it is worth, and whether it is worth anything, is decided by whoever asks for that part.
-/

namespace SearchFilter.Json

inductive Written where
  | null
  | bool (b : Bool)
  | number (n : Numeral)
  | string (pieces : List Piece)
  | array (items : List Written)
  | object (members : List (List Piece × Written))
  deriving Repr

namespace Written

/-- An array or an object that is not closed yet. What it holds so far is in reverse order. -/
inductive Frame where
  | array (items : List Written)
  | object (members : List (List Piece × Written)) (key : List Piece)

/-- What may come next, inside the open arrays and objects of a stack. -/
inductive State where
  | value (stack : List Frame)
  | firstItem (stack : List Frame)
  | firstKey (stack : List Frame)
  /-- A key, behind the members of an object. -/
  | key (members : List (List Piece × Written)) (stack : List Frame)
  | colon (members : List (List Piece × Written)) (key : List Piece) (stack : List Frame)
  /-- What comes behind a complete value. -/
  | after (value : Written) (stack : List Frame)

/-- A token where a value has to start. -/
def start? (stack : List Frame) : Token → Option State
  | .openBracket => some (.firstItem stack)
  | .openBrace => some (.firstKey stack)
  | .null => some (.after null stack)
  | .bool b => some (.after (bool b) stack)
  | .number n => some (.after (number n) stack)
  | .string pieces => some (.after (string pieces) stack)
  | _ => none

/-- A token behind a complete value. -/
def continue? (value : Written) : List Frame → Token → Option State
  | .array items :: stack, .comma => some (.value (.array (value :: items) :: stack))
  | .array items :: stack, .closeBracket => some (.after (array (value :: items).reverse) stack)
  | .object members key :: stack, .comma => some (.key ((key, value) :: members) stack)
  | .object members key :: stack, .closeBrace =>
    some (.after (object ((key, value) :: members).reverse) stack)
  | _, _ => none

def State.step? : State → Token → Option State
  | .value stack, token => start? stack token
  | .firstItem stack, .closeBracket => some (.after (array []) stack)
  | .firstItem stack, token => start? (.array [] :: stack) token
  | .firstKey stack, .closeBrace => some (.after (object []) stack)
  | .firstKey stack, .string pieces => some (.colon [] pieces stack)
  | .firstKey _, _ => none
  | .key members stack, .string pieces => some (.colon members pieces stack)
  | .key _ _, _ => none
  | .colon members name stack, .colon => some (.value (.object members name :: stack))
  | .colon _ _ _, _ => none
  | .after item stack, token => continue? item stack token

/-- The value that a state has completed, if nothing is open. -/
def State.result? : State → Option Written
  | .after item [] => some item
  | _ => none

def ofTokens? (tokens : List Token) : Option Written := do
  let state ← tokens.foldlM State.step? (.value [])
  state.result?

def read? (text : String) : Option Written := do
  ofTokens? (← tokens? text)

mutual

/-- The value of a written value that nests at most `depth` levels. -/
def toJson? : Nat → Written → Option Json
  | _, null => some .null
  | _, bool b => some (.bool b)
  | _, number n => n.toJson?
  | _, string pieces => Json.string <$> decodeString? pieces
  | 0, array _ => none
  | depth + 1, array items => Json.array <$> itemsToJson? depth items
  | 0, object _ => none
  | depth + 1, object members => Json.ofMembers <$> membersToJson? depth members

def itemsToJson? : Nat → List Written → Option (List Json)
  | _, [] => some []
  | depth, item :: rest => do
    let item ← toJson? depth item
    let rest ← itemsToJson? depth rest
    return item :: rest

def membersToJson? : Nat → List (List Piece × Written) → Option (List (String × Json))
  | _, [] => some []
  | depth, (key, value) :: rest => do
    let key ← decodeString? key
    let value ← toJson? depth value
    let rest ← membersToJson? depth rest
    return (key, value) :: rest

end

/-- The fields of a record with these field names, each of which may be given once. An object may
have other members besides, and an array gives the fields in their order, from the first on. -/
def fields? (names : List String) : Written → Option (List (String × Written))
  | array items => if items.length ≤ names.length then some (names.zip items) else none
  | object members => do
    let members ← members.mapM fun (key, value) => do return (← decodeString? key, value)
    let known := members.filter fun (key, _) => names.contains key
    if (known.map (·.1)).Nodup then some known else none
  | _ => none

/-- The natural number below `2 ^ 64` that is written without sign, fraction and exponent. -/
def toUInt64? : Written → Option UInt64
  | number n => n.toUInt64?
  | _ => none

def toString? : Written → Option String
  | string pieces => decodeString? pieces
  | _ => none

end Written

/-- The value of a text that nests at most `depth` levels. -/
def read? (depth : Nat) (text : String) : Option Json := do
  (← Written.read? text).toJson? depth

end SearchFilter.Json
