import SearchFilter.Json.Text
import SearchFilter.Request.Option

/-!
# Search requests

What is sent for one search. A request has an index, a query text, the text of a filter if there is
one, and the options that are set. An option that is not set leaves no trace in the request.
-/

namespace SearchFilter

/-- The options of a search other than its filter. -/
structure SearchOptions where
  limit : Option UInt64 := none
  offset : Option UInt64 := none
  hitsPerPage : Option UInt64 := none
  page : Option UInt64 := none
  facets : Option (List String) := none
  attributesToRetrieve : Option (List String) := none
  attributesToCrop : Option (List String) := none
  cropLength : Option UInt64 := none
  cropMarker : Option String := none
  attributesToHighlight : Option (List String) := none
  highlightPreTag : Option String := none
  highlightPostTag : Option String := none
  showMatchesPosition : Option Bool := none
  sort : Option (List String) := none
  matchingStrategy : Option MatchingStrategy := none
  deriving DecidableEq, Repr

namespace SearchOptions

def count (n : UInt64) : Json := .int n.toNat

def texts (items : List String) : Json := .array (items.map .string)

def members (options : SearchOptions) : Json.Members :=
  [("limit", options.limit.map count),
    ("offset", options.offset.map count),
    ("hitsPerPage", options.hitsPerPage.map count),
    ("page", options.page.map count),
    ("facets", options.facets.map texts),
    ("attributesToRetrieve", options.attributesToRetrieve.map texts),
    ("attributesToCrop", options.attributesToCrop.map texts),
    ("cropLength", options.cropLength.map count),
    ("cropMarker", options.cropMarker.map .string),
    ("attributesToHighlight", options.attributesToHighlight.map texts),
    ("highlightPreTag", options.highlightPreTag.map .string),
    ("highlightPostTag", options.highlightPostTag.map .string),
    ("showMatchesPosition", options.showMatchesPosition.map .bool),
    ("sort", options.sort.map texts),
    ("matchingStrategy", options.matchingStrategy.map fun s => .string s.name)].filterMap
      fun (key, value) => value.map (key, ·)

/-- The options as the text of a JSON object. -/
def text (options : SearchOptions) : String :=
  Json.membersText options.members

end SearchOptions

/-- One request of a batch. -/
structure SearchRequest where
  indexUid : String
  query : String
  filter : Option String
  options : SearchOptions
  deriving DecidableEq, Repr

namespace SearchRequest

def members (request : SearchRequest) : Json.Members :=
  [("indexUid", .string request.indexUid), ("q", .string request.query)] ++
    (request.filter.toList.map fun filter => ("filter", .string filter)) ++
    request.options.members

def toJson (request : SearchRequest) : Json :=
  .ofMembers request.members

/-- The request as the text of a JSON object, with its parts in order. -/
def text (request : SearchRequest) : String :=
  Json.membersText request.members

end SearchRequest

end SearchFilter
