import SearchFilter.Request.Search
import Mathlib.Logic.Function.Basic

/-!
# Slots

A search holds its options in sixteen slots, which are written by three different tables: the setters,
the checked assignments and the test of what is set. Here a slot is named by its option, and holds a
content of the type that the kind of the option calls for. Every table is then a single law: a setter
writes its slot and no other, an assignment writes as the setter does or not at all, and what is set
is what the slots hold.
-/

namespace SearchFilter

/-- What an option of a kind holds. -/
def OptionKind.Content : OptionKind → Type
  | filter => Expr
  | integer => UInt64
  | text => String
  | textList => List String
  | flag => Bool
  | strategy => MatchingStrategy

/-- What a value is worth to an option of a kind. Faults are reported against the target. -/
def OptionKind.read (target : String) : (kind : OptionKind) → OptionValue → Except Error kind.Content
  | filter, .filter q => .ok q
  | integer, .integer n =>
    if n < 0 then .error (.invalidValue target "non-negative integer" "negative integer")
    else .ok n.toUInt64
  | text, .text s => .ok s
  | textList, .textList items => .ok items
  | flag, .flag b => .ok b
  | strategy, .strategy s => .ok s
  | strategy, .text s => MatchingStrategy.parse s
  | kind, value => .error (.invalidValue target kind.describe value.kind.describe)

def SearchOption.Content (option : SearchOption) : Type := option.kind.Content

def SearchOption.read (option : SearchOption) (value : OptionValue) : Except Error option.Content :=
  option.kind.read option.name value

namespace IndexSearch

def slot (search : IndexSearch) : (option : SearchOption) → Option option.Content
  | .filter => search.filter
  | .limit => search.options.limit
  | .offset => search.options.offset
  | .hitsPerPage => search.options.hitsPerPage
  | .page => search.options.page
  | .facets => search.options.facets
  | .attributesToRetrieve => search.options.attributesToRetrieve
  | .attributesToCrop => search.options.attributesToCrop
  | .cropLength => search.options.cropLength
  | .cropMarker => search.options.cropMarker
  | .attributesToHighlight => search.options.attributesToHighlight
  | .highlightPreTag => search.options.highlightPreTag
  | .highlightPostTag => search.options.highlightPostTag
  | .showMatchesPosition => search.options.showMatchesPosition
  | .sort => search.options.sort
  | .matchingStrategy => search.options.matchingStrategy

def put (search : IndexSearch) : (option : SearchOption) → option.Content → IndexSearch
  | .filter => search.withFilter
  | .limit => search.withLimit
  | .offset => search.withOffset
  | .hitsPerPage => search.withHitsPerPage
  | .page => search.withPage
  | .facets => search.withFacets
  | .attributesToRetrieve => search.withAttributesToRetrieve
  | .attributesToCrop => search.withAttributesToCrop
  | .cropLength => search.withCropLength
  | .cropMarker => search.withCropMarker
  | .attributesToHighlight => search.withAttributesToHighlight
  | .highlightPreTag => search.withHighlightPreTag
  | .highlightPostTag => search.withHighlightPostTag
  | .showMatchesPosition => search.withShowMatchesPosition
  | .sort => search.withSort
  | .matchingStrategy => search.withMatchingStrategy

theorem isSet_eq (search : IndexSearch) (option : SearchOption) :
    search.isSet option = (search.slot option).isSome := by
  cases option <;> rfl

theorem slot_new (indexUid query : String) (option : SearchOption) :
    (new indexUid query).slot option = none := by
  cases option <;> rfl

/-- A search is nothing but its index, its query and its slots. -/
theorem eq_of_slot_eq {search other : IndexSearch} (hindexUid : search.indexUid = other.indexUid)
    (hquery : search.query = other.query) (hslot : ∀ option, search.slot option = other.slot option) :
    search = other := by
  have hoptions : search.options = other.options := by
    obtain ⟨_, _, _, options⟩ := search
    obtain ⟨_, _, _, options'⟩ := other
    cases options
    cases options'
    rw [SearchOptions.mk.injEq]
    exact ⟨hslot .limit, hslot .offset, hslot .hitsPerPage, hslot .page, hslot .facets,
      hslot .attributesToRetrieve, hslot .attributesToCrop, hslot .cropLength, hslot .cropMarker,
      hslot .attributesToHighlight, hslot .highlightPreTag, hslot .highlightPostTag,
      hslot .showMatchesPosition, hslot .sort, hslot .matchingStrategy⟩
  have hfilter : search.filter = other.filter := hslot .filter
  cases search
  cases other
  simp_all

section Put

variable (search : IndexSearch) (option : SearchOption) (content : option.Content)

theorem indexUid_put : (search.put option content).indexUid = search.indexUid := by
  cases option <;> rfl

theorem query_put : (search.put option content).query = search.query := by
  cases option <;> rfl

theorem slot_put :
    (search.put option content).slot = Function.update search.slot option (some content) := by
  funext other
  cases option <;> cases other <;> rfl

theorem slot_put_self : (search.put option content).slot option = some content := by
  rw [slot_put, Function.update_self]

theorem slot_put_of_ne {other : SearchOption} (h : other ≠ option) :
    (search.put option content).slot other = search.slot other := by
  rw [slot_put, Function.update_of_ne h]

end Put

/-- Every assignment checks its value by the kind of the option and then calls the setter. -/
theorem assignOption_eq (option : SearchOption) (value : OptionValue) :
    assignOption option value =
      (do let content ← option.read value; modify (·.put option content)) := by
  cases option <;> cases value <;> rfl

end IndexSearch

end SearchFilter
