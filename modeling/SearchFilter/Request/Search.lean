import SearchFilter.Expr.Render
import SearchFilter.Request.Basic

/-!
# Searches

A search of one index while it is put together. Options are assigned by name, with a check of the
value, or by a setter of their own. An assignment works on the search in place and may be refused on
the way. The filter is first looked at when the request is built.
-/

namespace SearchFilter

structure IndexSearch where
  indexUid : String
  query : String
  filter : Option Expr := none
  options : SearchOptions := {}
  deriving BEq, Repr

namespace IndexSearch

def new (indexUid query : String) : IndexSearch :=
  { indexUid, query }

def withOptions (search : IndexSearch) (change : SearchOptions → SearchOptions) : IndexSearch :=
  { search with options := change search.options }

/-! ## Assignments -/

/-- Work on a search in place. A fault ends the work, and takes back nothing that is written. -/
abbrev Update := ExceptT Error (StateM IndexSearch)

/-- The answer to an update of a search, and what the search has become. -/
def Update.apply (update : Update Unit) (search : IndexSearch) : Except Error Unit × IndexSearch :=
  Id.run (update.run.run search)

/-- The count that is assigned to an option. -/
def nonNegative (option : SearchOption) (n : Int64) : Except Error UInt64 :=
  if n < 0 then .error (.invalidValue option.name "non-negative integer" "negative integer")
  else .ok n.toUInt64

/-- Assigns an option. A matching strategy may be given by its name. -/
def assignOption (option : SearchOption) (value : OptionValue) : Update Unit := do
  match option, value with
  | .filter, .filter q => modify ({ · with filter := some q })
  | .limit, .integer n =>
    let n ← nonNegative option n
    modify (·.withOptions ({ · with limit := some n }))
  | .offset, .integer n =>
    let n ← nonNegative option n
    modify (·.withOptions ({ · with offset := some n }))
  | .hitsPerPage, .integer n =>
    let n ← nonNegative option n
    modify (·.withOptions ({ · with hitsPerPage := some n }))
  | .page, .integer n =>
    let n ← nonNegative option n
    modify (·.withOptions ({ · with page := some n }))
  | .cropLength, .integer n =>
    let n ← nonNegative option n
    modify (·.withOptions ({ · with cropLength := some n }))
  | .facets, .textList items => modify (·.withOptions ({ · with facets := some items }))
  | .attributesToRetrieve, .textList items =>
    modify (·.withOptions ({ · with attributesToRetrieve := some items }))
  | .attributesToCrop, .textList items =>
    modify (·.withOptions ({ · with attributesToCrop := some items }))
  | .attributesToHighlight, .textList items =>
    modify (·.withOptions ({ · with attributesToHighlight := some items }))
  | .sort, .textList items => modify (·.withOptions ({ · with sort := some items }))
  | .cropMarker, .text s => modify (·.withOptions ({ · with cropMarker := some s }))
  | .highlightPreTag, .text s => modify (·.withOptions ({ · with highlightPreTag := some s }))
  | .highlightPostTag, .text s => modify (·.withOptions ({ · with highlightPostTag := some s }))
  | .showMatchesPosition, .flag b =>
    modify (·.withOptions ({ · with showMatchesPosition := some b }))
  | .matchingStrategy, .strategy s =>
    modify (·.withOptions ({ · with matchingStrategy := some s }))
  | .matchingStrategy, .text s =>
    let strategy ← MatchingStrategy.parse s
    modify (·.withOptions ({ · with matchingStrategy := some strategy }))
  | option, value =>
    throw (.invalidValue option.name option.kind.describe value.kind.describe)

/-- Assigns the option with a name. -/
def assign (name : String) (value : OptionValue) : Update Unit := do
  assignOption (← SearchOption.parse name) value

/-- The search with an option assigned, unless that is refused. -/
def setOption (search : IndexSearch) (option : SearchOption) (value : OptionValue) :
    Except Error IndexSearch :=
  let (answer, search) := (assignOption option value).apply search
  answer.map fun _ => search

/-- The search with the option of a name assigned, unless that is refused. -/
def set (search : IndexSearch) (name : String) (value : OptionValue) :
    Except Error IndexSearch :=
  let (answer, search) := (assign name value).apply search
  answer.map fun _ => search

def isSet (search : IndexSearch) : SearchOption → Bool
  | .filter => search.filter.isSome
  | .limit => search.options.limit.isSome
  | .offset => search.options.offset.isSome
  | .hitsPerPage => search.options.hitsPerPage.isSome
  | .page => search.options.page.isSome
  | .facets => search.options.facets.isSome
  | .attributesToRetrieve => search.options.attributesToRetrieve.isSome
  | .attributesToCrop => search.options.attributesToCrop.isSome
  | .cropLength => search.options.cropLength.isSome
  | .cropMarker => search.options.cropMarker.isSome
  | .attributesToHighlight => search.options.attributesToHighlight.isSome
  | .highlightPreTag => search.options.highlightPreTag.isSome
  | .highlightPostTag => search.options.highlightPostTag.isSome
  | .showMatchesPosition => search.options.showMatchesPosition.isSome
  | .sort => search.options.sort.isSome
  | .matchingStrategy => search.options.matchingStrategy.isSome

/-! ## Setters -/

def withFilter (search : IndexSearch) (filter : Expr) : IndexSearch :=
  { search with filter := some filter }

def withLimit (search : IndexSearch) (n : UInt64) : IndexSearch :=
  search.withOptions ({ · with limit := some n })

def withOffset (search : IndexSearch) (n : UInt64) : IndexSearch :=
  search.withOptions ({ · with offset := some n })

def withHitsPerPage (search : IndexSearch) (n : UInt64) : IndexSearch :=
  search.withOptions ({ · with hitsPerPage := some n })

def withPage (search : IndexSearch) (n : UInt64) : IndexSearch :=
  search.withOptions ({ · with page := some n })

def withFacets (search : IndexSearch) (names : List String) : IndexSearch :=
  search.withOptions ({ · with facets := some names })

def withAttributesToRetrieve (search : IndexSearch) (names : List String) : IndexSearch :=
  search.withOptions ({ · with attributesToRetrieve := some names })

def withAttributesToCrop (search : IndexSearch) (names : List String) : IndexSearch :=
  search.withOptions ({ · with attributesToCrop := some names })

def withCropLength (search : IndexSearch) (n : UInt64) : IndexSearch :=
  search.withOptions ({ · with cropLength := some n })

def withCropMarker (search : IndexSearch) (marker : String) : IndexSearch :=
  search.withOptions ({ · with cropMarker := some marker })

def withAttributesToHighlight (search : IndexSearch) (names : List String) : IndexSearch :=
  search.withOptions ({ · with attributesToHighlight := some names })

def withHighlightPreTag (search : IndexSearch) (tag : String) : IndexSearch :=
  search.withOptions ({ · with highlightPreTag := some tag })

def withHighlightPostTag (search : IndexSearch) (tag : String) : IndexSearch :=
  search.withOptions ({ · with highlightPostTag := some tag })

def withShowMatchesPosition (search : IndexSearch) (b : Bool) : IndexSearch :=
  search.withOptions ({ · with showMatchesPosition := some b })

/-- The rules are of the form `age:asc`. -/
def withSort (search : IndexSearch) (rules : List String) : IndexSearch :=
  search.withOptions ({ · with sort := some rules })

def withMatchingStrategy (search : IndexSearch) (strategy : MatchingStrategy) : IndexSearch :=
  search.withOptions ({ · with matchingStrategy := some strategy })

/-! ## Requests -/

/-- The request for a search. It fails if the filter cannot be written. -/
def build (search : IndexSearch) : Except Error SearchRequest := do
  let filter ← search.filter.mapM Expr.render
  return { indexUid := search.indexUid, query := search.query, filter, options := search.options }

def toJson (search : IndexSearch) : Except Error Json :=
  SearchRequest.toJson <$> search.build

end IndexSearch

end SearchFilter
