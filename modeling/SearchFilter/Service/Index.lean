import SearchFilter.Request.Search
import SearchFilter.Service.Basic

/-!
# Searching

Searches by way of a service. Filters are written before the service is called, so a filter that
cannot be written never reaches it, and a batch is sent as a whole or not at all.
-/

namespace SearchFilter

universe u

variable {m : Type → Type u} [Monad m] {ε : Type}

/-- Sends searches as one batch of requests. The first that cannot be built is reported. -/
def SearchService.submit (service : SearchService m ε) (searches : List IndexSearch) :
    m (Except (ServiceError ε) (List Json)) :=
  match searches.mapM IndexSearch.build with
  | .error e => pure (.error (.input e))
  | .ok requests => do
    let answer ← service.multiSearch requests
    return answer.mapError .service

structure Index (m : Type → Type u) (ε : Type) where
  service : SearchService m ε
  uid : String

namespace Index

/-- The parameters of a search: the text of the filter, overlaid with the caller's options. -/
def parameters (filter : Option Expr) (options : Option Json.Members) :
    Except Error Json.Members := do
  let text ← filter.mapM Expr.render
  let params := text.toList.map fun text => ("filter", Json.string text)
  return Json.Members.extend params (options.getD [])

def search (index : Index m ε) (query : String) (filter : Option Expr)
    (options : Option Json.Members) : m (Except (ServiceError ε) Json) :=
  match parameters filter options with
  | .error e => pure (.error (.input e))
  | .ok params => do
    let answer ← index.service.search index.uid query params
    return answer.mapError .service

/-- Sends searches, of this index or others, as one batch. -/
def multiSearch (index : Index m ε) (searches : List IndexSearch) :
    m (Except (ServiceError ε) (List Json)) :=
  index.service.submit searches

end Index

end SearchFilter
