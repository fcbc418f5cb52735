import SearchFilter.Operator
import SearchFilter.Error

/-!
# Keys

A key names a field and an operator in one word, such as `author__name__neq`. What follows the
rightmost separator is the operator's suffix, and the segments before it are the path to the field,
which the filter language joins with dots. A key without a separator is a field to be tested for
equality.
-/

namespace SearchFilter.Key

/-- What stands between the segments of a key and before its suffix. -/
def separator : String := "__"

/-- The texts before and after the rightmost occurrence of the separator. -/
def cutLast : List Char → Option (List Char × List Char)
  | [] => none
  | c :: rest =>
    match cutLast rest with
    | some (path, suffix) => some (c :: path, suffix)
    | none =>
      match c, rest with
      | '_', '_' :: suffix => some ([], suffix)
      | _, _ => none

/-- The texts between the occurrences of the separator, which are found from the left and do not
overlap. There is always at least one. -/
def segments : List Char → List (List Char)
  | [] => [[]]
  | '_' :: '_' :: rest => [] :: segments rest
  | c :: rest =>
    match segments rest with
    | [] => [[c]]
    | first :: others => (c :: first) :: others

theorem segments_ne_nil (path : List Char) : segments path ≠ [] := by
  fun_cases segments path <;> simp_all

/-- The field that a path leads to. -/
def field (path : List Char) : String :=
  ".".intercalate ((segments path).map String.ofList)

/-- The field and the operator that a key names. -/
def split (key : String) : Except Error (String × Operator) :=
  match cutLast key.toList with
  | none => .ok (key, default)
  | some (path, suffix) =>
    match Operator.ofSuffix? (String.ofList suffix) with
    | none => .error (.invalidOperator key (String.ofList suffix))
    | some op => .ok (field path, op)

/-- The key for a field and an operator. -/
def join (field : String) (op : Operator) : String :=
  field ++ separator ++ op.suffix

end SearchFilter.Key
