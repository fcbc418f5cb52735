import SearchFilter.Request.Basic
import SearchFilter.Task.Basic

/-!
# Search services

What is asked of a search service. The operations run in a monad `m`, which may be that of a
connection or of a state, and fail with the service's own errors `ε`.
-/

namespace SearchFilter

universe u

structure SearchService (m : Type → Type u) (ε : Type) where
  /-- Searches the index with a uid for a query, under the given parameters. -/
  search : String → String → Json.Members → m (Except ε Json)
  multiSearch : List SearchRequest → m (Except ε (List Json))
  task : UInt64 → m (Except ε TaskInfo)

/-- Why a search failed. -/
inductive ServiceError (ε : Type) where
  /-- Nothing was sent, because of the caller's input. -/
  | input (error : Error)
  | service (error : ε)
  deriving DecidableEq, Repr

/-- The wording of an error, where `describe` gives that of the service's own. -/
def ServiceError.message {ε : Type} (describe : ε → String) : ServiceError ε → String
  | input error => error.message
  | service error => "search service error: " ++ describe error

end SearchFilter
