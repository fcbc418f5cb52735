import SearchFilter.Expr.Basic

/-!
# Search options

The sixteen options of a search, each with its name, its key in a request and the kind of value it
takes, and the values that can be assigned to an option by name.
-/

namespace SearchFilter

inductive OptionKind where
  | filter
  | integer
  | text
  | textList
  | flag
  | strategy
  deriving DecidableEq, Repr

def OptionKind.describe : OptionKind → String
  | filter => "filter expression"
  | integer => "integer"
  | text => "text"
  | textList => "list of text"
  | flag => "boolean"
  | strategy => "matching strategy"

inductive SearchOption where
  | filter
  | limit
  | offset
  | hitsPerPage
  | page
  | facets
  | attributesToRetrieve
  | attributesToCrop
  | cropLength
  | cropMarker
  | attributesToHighlight
  | highlightPreTag
  | highlightPostTag
  | showMatchesPosition
  | sort
  | matchingStrategy
  deriving DecidableEq, Repr

namespace SearchOption

/-- Every option, in the order in which requests carry them. -/
def all : List SearchOption :=
  [filter, limit, offset, hitsPerPage, page, facets, attributesToRetrieve, attributesToCrop,
    cropLength, cropMarker, attributesToHighlight, highlightPreTag, highlightPostTag,
    showMatchesPosition, sort, matchingStrategy]

theorem mem_all (option : SearchOption) : option ∈ all := by
  cases option <;> simp [all]

/-- The name under which the option is assigned. -/
def name : SearchOption → String
  | filter => "filter"
  | limit => "limit"
  | offset => "offset"
  | hitsPerPage => "hits_per_page"
  | page => "page"
  | facets => "facets"
  | attributesToRetrieve => "attributes_to_retrieve"
  | attributesToCrop => "attributes_to_crop"
  | cropLength => "crop_length"
  | cropMarker => "crop_marker"
  | attributesToHighlight => "attributes_to_highlight"
  | highlightPreTag => "highlight_pre_tag"
  | highlightPostTag => "highlight_post_tag"
  | showMatchesPosition => "show_matches_position"
  | sort => "sort"
  | matchingStrategy => "matching_strategy"

/-- The key under which a request carries the option. -/
def key : SearchOption → String
  | filter => "filter"
  | limit => "limit"
  | offset => "offset"
  | hitsPerPage => "hitsPerPage"
  | page => "page"
  | facets => "facets"
  | attributesToRetrieve => "attributesToRetrieve"
  | attributesToCrop => "attributesToCrop"
  | cropLength => "cropLength"
  | cropMarker => "cropMarker"
  | attributesToHighlight => "attributesToHighlight"
  | highlightPreTag => "highlightPreTag"
  | highlightPostTag => "highlightPostTag"
  | showMatchesPosition => "showMatchesPosition"
  | sort => "sort"
  | matchingStrategy => "matchingStrategy"

def kind : SearchOption → OptionKind
  | filter => .filter
  | limit | offset | hitsPerPage | page | cropLength => .integer
  | cropMarker | highlightPreTag | highlightPostTag => .text
  | facets | attributesToRetrieve | attributesToCrop | attributesToHighlight | sort => .textList
  | showMatchesPosition => .flag
  | matchingStrategy => .strategy

def parse (name : String) : Except Error SearchOption :=
  match all.find? (·.name == name) with
  | some option => .ok option
  | none => .error (.unknownOption name)

theorem parse_name (option : SearchOption) : parse option.name = .ok option := by
  cases option <;> rfl

end SearchOption

/-- Which words of a query a document has to contain. -/
inductive MatchingStrategy where
  | last
  | all
  | frequency
  deriving DecidableEq, Repr

namespace MatchingStrategy

def values : List MatchingStrategy := [last, all, frequency]

def name : MatchingStrategy → String
  | last => "last"
  | all => "all"
  | frequency => "frequency"

def parse (name : String) : Except Error MatchingStrategy :=
  match values.find? (·.name == name) with
  | some strategy => .ok strategy
  | none => .error (.invalidStrategy name)

theorem parse_name (strategy : MatchingStrategy) : parse strategy.name = .ok strategy := by
  cases strategy <;> rfl

end MatchingStrategy

/-- A value to be assigned to an option. -/
inductive OptionValue where
  | filter (q : Expr)
  | integer (n : Int64)
  | text (s : String)
  | textList (items : List String)
  | flag (b : Bool)
  | strategy (s : MatchingStrategy)
  deriving BEq, Repr

namespace OptionValue

def kind : OptionValue → OptionKind
  | filter _ => .filter
  | integer _ => .integer
  | text _ => .text
  | textList _ => .textList
  | flag _ => .flag
  | strategy _ => .strategy

/-- An integer of at most 64 bits. What is too large for a signed integer becomes the greatest. -/
def ofInt (n : Int) : OptionValue :=
  integer (if n ≤ Int64.maxValue.toInt then .ofInt n else .maxValue)

instance : Coe Int32 OptionValue := ⟨fun n => ofInt n.toInt⟩
instance : Coe Int64 OptionValue := ⟨fun n => ofInt n.toInt⟩
instance : Coe UInt32 OptionValue := ⟨fun n => ofInt n.toNat⟩
instance : Coe UInt64 OptionValue := ⟨fun n => ofInt n.toNat⟩
instance : Coe Expr OptionValue := ⟨filter⟩
instance : Coe String OptionValue := ⟨text⟩
instance : Coe (List String) OptionValue := ⟨textList⟩
instance : Coe Bool OptionValue := ⟨flag⟩
instance : Coe MatchingStrategy OptionValue := ⟨strategy⟩

end OptionValue

end SearchFilter
