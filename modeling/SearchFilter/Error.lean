/-!
# Errors

What can be wrong with a filter, a search option or a request, and the wording of each.
-/

namespace SearchFilter

/-- A fault in the caller's input. -/
inductive Error where
  /-- The key ends in a suffix that names no operator. -/
  | invalidOperator (key operator : String)
  /-- The value has the wrong shape for its operator or option. -/
  | invalidValue (target expected actual : String)
  /-- No search option has this name. -/
  | unknownOption (name : String)
  /-- The filter nests deeper than the limit. -/
  | depthExceeded (depth max : Nat)
  /-- No matching strategy has this name. -/
  | invalidStrategy (name : String)
  /-- A request has no text. -/
  | serialization (reason : String)
  deriving DecidableEq, Repr

namespace Error

def message : Error → String
  | invalidOperator key operator => s!"invalid operator '{operator}' in key '{key}'"
  | invalidValue target expected actual =>
    s!"invalid value for {target}: expected {expected}, got {actual}"
  | unknownOption name => s!"unknown search option '{name}'"
  | depthExceeded depth max =>
    s!"filter nesting depth {depth} exceeds the supported maximum of {max}"
  | invalidStrategy name =>
    s!"invalid matching strategy '{name}' (expected last, all or frequency)"
  | serialization reason => s!"failed to serialize search request: {reason}"

end Error

end SearchFilter
