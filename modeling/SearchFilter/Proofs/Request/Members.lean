import SearchFilter.Proofs.Fault
import SearchFilter.Proofs.Json.Members
import SearchFilter.Proofs.Request.Slot
import Mathlib

/-!
# The members of a request

A request is written from a list of its fields, and each of the options has a key of its own. So what
the request carries can be read off option by option: nothing that is set is lost, nothing is there
that is not set, and two requests that are written alike are the same.
-/

namespace SearchFilter

/-! ## Keys -/

/-- Every key that a request can have. -/
def SearchRequest.allKeys : List String :=
  "indexUid" :: "q" :: SearchOption.all.map SearchOption.key

theorem SearchRequest.nodup_allKeys : allKeys.Nodup := by
  decide

theorem SearchOption.key_injective : Function.Injective key := by
  have hnodup : (all.map key).Nodup := SearchRequest.nodup_allKeys.of_cons.of_cons
  intro option other h
  exact List.inj_on_of_nodup_map hnodup (mem_all option) (mem_all other) h

theorem SearchOption.key_ne_indexUid (option : SearchOption) : option.key ≠ "indexUid" := by
  cases option <;> decide

theorem SearchOption.key_ne_q (option : SearchOption) : option.key ≠ "q" := by
  cases option <;> decide

/-! ## Values -/

theorem SearchOptions.count_injective : Function.Injective count := by
  intro n m h
  rw [count, count, Json.int.injEq] at h
  exact UInt64.toNat_inj.mp (Int.ofNat.inj h)

theorem SearchOptions.texts_injective : Function.Injective texts := by
  intro items others h
  rw [texts, texts, Json.array.injEq] at h
  exact List.map_injective_iff.mpr (fun _ _ => Json.string.inj) h

theorem MatchingStrategy.name_injective : Function.Injective name := by
  intro strategy other h
  have hparse : (.ok strategy : Except Error MatchingStrategy) = .ok other := by
    rw [← parse_name, ← parse_name, h]
  exact Except.ok.inj hparse

namespace SearchRequest

variable {request other : SearchRequest}

/-- What a request carries for an option. -/
def carried? (request : SearchRequest) : SearchOption → Option Json
  | .filter => request.filter.map .string
  | .limit => request.options.limit.map SearchOptions.count
  | .offset => request.options.offset.map SearchOptions.count
  | .hitsPerPage => request.options.hitsPerPage.map SearchOptions.count
  | .page => request.options.page.map SearchOptions.count
  | .facets => request.options.facets.map SearchOptions.texts
  | .attributesToRetrieve => request.options.attributesToRetrieve.map SearchOptions.texts
  | .attributesToCrop => request.options.attributesToCrop.map SearchOptions.texts
  | .cropLength => request.options.cropLength.map SearchOptions.count
  | .cropMarker => request.options.cropMarker.map .string
  | .attributesToHighlight => request.options.attributesToHighlight.map SearchOptions.texts
  | .highlightPreTag => request.options.highlightPreTag.map .string
  | .highlightPostTag => request.options.highlightPostTag.map .string
  | .showMatchesPosition => request.options.showMatchesPosition.map .bool
  | .sort => request.options.sort.map SearchOptions.texts
  | .matchingStrategy => request.options.matchingStrategy.map fun s => .string s.name

theorem eq_of_carried?_eq (hindexUid : request.indexUid = other.indexUid)
    (hquery : request.query = other.query)
    (h : ∀ option, request.carried? option = other.carried? option) : request = other := by
  -- However the content of a slot is encoded, it can be told from the code.
  have count {slot slot' : Option UInt64}
      (hslot : slot.map SearchOptions.count = slot'.map SearchOptions.count) : slot = slot' :=
    Option.map_injective SearchOptions.count_injective hslot
  have texts {slot slot' : Option (List String)}
      (hslot : slot.map SearchOptions.texts = slot'.map SearchOptions.texts) : slot = slot' :=
    Option.map_injective SearchOptions.texts_injective hslot
  have text {slot slot' : Option String}
      (hslot : slot.map Json.string = slot'.map Json.string) : slot = slot' :=
    Option.map_injective (fun _ _ => Json.string.inj) hslot
  have flag {slot slot' : Option Bool}
      (hslot : slot.map Json.bool = slot'.map Json.bool) : slot = slot' :=
    Option.map_injective (fun _ _ => Json.bool.inj) hslot
  have strategy {slot slot' : Option MatchingStrategy}
      (hslot : slot.map (fun s => Json.string s.name) = slot'.map fun s => Json.string s.name) :
      slot = slot' :=
    Option.map_injective (fun _ _ hs => MatchingStrategy.name_injective (Json.string.inj hs)) hslot
  have hfilter : request.filter = other.filter := text (h .filter)
  have hoptions : request.options = other.options := by
    obtain ⟨_, _, _, options⟩ := request
    obtain ⟨_, _, _, options'⟩ := other
    cases options
    cases options'
    rw [SearchOptions.mk.injEq]
    exact ⟨count (h .limit), count (h .offset), count (h .hitsPerPage), count (h .page),
      texts (h .facets), texts (h .attributesToRetrieve), texts (h .attributesToCrop),
      count (h .cropLength), text (h .cropMarker), texts (h .attributesToHighlight),
      text (h .highlightPreTag), text (h .highlightPostTag), flag (h .showMatchesPosition),
      texts (h .sort), strategy (h .matchingStrategy)⟩
  cases request
  cases other
  simp_all

/-! ## Members -/

theorem members_eq (request : SearchRequest) :
    request.members = ("indexUid", .string request.indexUid) :: ("q", .string request.query) ::
      SearchOption.all.filterMap fun option => (request.carried? option).map (option.key, ·) := by
  -- The filter is the first option and the others follow as they are declared.
  have hoptions : request.options.members =
      SearchOption.all.tail.filterMap fun option =>
        (request.carried? option).map (option.key, ·) := by
    calc request.options.members
        = (SearchOption.all.tail.map fun option => (option.key, request.carried? option)).filterMap
            fun member => member.2.map (member.1, ·) := rfl
      _ = _ := List.filterMap_map
  rw [members, hoptions]
  cases request with
  | mk indexUid query filter options => cases filter <;> rfl

theorem mem_members_iff {key : String} {value : Json} :
    (key, value) ∈ request.members ↔
      (key = "indexUid" ∧ value = .string request.indexUid) ∨
      (key = "q" ∧ value = .string request.query) ∨
      ∃ option, request.carried? option = some value ∧ option.key = key := by
  simp [members_eq, SearchOption.mem_all, and_comm]

theorem mem_members_indexUid_iff {value : Json} :
    ("indexUid", value) ∈ request.members ↔ value = .string request.indexUid := by
  simp [mem_members_iff, SearchOption.key_ne_indexUid]

theorem mem_members_query_iff {value : Json} :
    ("q", value) ∈ request.members ↔ value = .string request.query := by
  simp [mem_members_iff, SearchOption.key_ne_q]

theorem mem_members_key_iff {option : SearchOption} {value : Json} :
    (option.key, value) ∈ request.members ↔ request.carried? option = some value := by
  simp [mem_members_iff, SearchOption.key_ne_indexUid, SearchOption.key_ne_q,
    SearchOption.key_injective.eq_iff]

theorem keys_members (request : SearchRequest) :
    Json.Members.keys request.members = "indexUid" :: "q" ::
      (SearchOption.all.filter fun option => (request.carried? option).isSome).map
        SearchOption.key := by
  have hkeys (options : List SearchOption) :
      (options.filterMap fun option => (request.carried? option).map (option.key, ·)).map (·.1) =
        (options.filter fun option => (request.carried? option).isSome).map SearchOption.key := by
    induction options with
    | nil => rfl
    | cons option rest ih =>
        cases h : request.carried? option <;> simp [h, ih]
  rw [members_eq, Json.Members.keys, List.map_cons, List.map_cons, hkeys]

theorem nodup_keys_members (request : SearchRequest) :
    (Json.Members.keys request.members).Nodup := by
  rw [keys_members]
  exact nodup_allKeys.sublist (((List.filter_sublist.map _).cons_cons _).cons_cons _)

/-- Everything that a request is made of arrives in its object. -/
theorem perm_of_toJson_eq {members : Json.Members} (h : request.toJson = .object members) :
    members.Perm request.members := by
  rw [toJson, Json.ofMembers, Json.object.injEq] at h
  rw [← h]
  exact Json.Members.extend_perm (nodup_keys_members request)

theorem toJson_injective : Function.Injective toJson := by
  intro request other h
  have hmem (member : String × Json) : member ∈ request.members ↔ member ∈ other.members := by
    rw [← (perm_of_toJson_eq rfl).mem_iff, ← (perm_of_toJson_eq h.symm).mem_iff]
  apply eq_of_carried?_eq
  · have hindexUid := (hmem _).mp (mem_members_iff.mpr (.inl ⟨rfl, rfl⟩))
    exact Json.string.inj (mem_members_indexUid_iff.mp hindexUid)
  · have hquery := (hmem _).mp (mem_members_iff.mpr (.inr (.inl ⟨rfl, rfl⟩)))
    exact Json.string.inj (mem_members_query_iff.mp hquery)
  · intro option
    apply Option.ext
    intro value
    rw [← mem_members_key_iff, hmem, mem_members_key_iff]

end SearchRequest

/-! ## Searches -/

/-- How a request carries what an option of a kind holds. A filter is carried as its text. -/
def OptionKind.encode : (kind : OptionKind) → kind.Content → Except Error Json
  | filter, q => Json.string <$> Expr.render q
  | integer, n => .ok (SearchOptions.count n)
  | text, s => .ok (.string s)
  | textList, items => .ok (SearchOptions.texts items)
  | flag, b => .ok (.bool b)
  | strategy, s => .ok (.string s.name)

def SearchOption.encode (option : SearchOption) (content : option.Content) : Except Error Json :=
  option.kind.encode content

namespace IndexSearch

/-- The members that a search asks for. -/
inductive Carries (search : IndexSearch) : String → Json → Prop where
  | indexUid : search.Carries "indexUid" (.string search.indexUid)
  | query : search.Carries "q" (.string search.query)
  | option {option : SearchOption} {content : option.Content} {value : Json} :
      search.slot option = some content → option.encode content = .ok value →
      search.Carries option.key value

variable {search : IndexSearch} {request : SearchRequest}

theorem exists_build (h : ∀ q, search.filter = some q → ∃ text, q.render = .ok text) :
    ∃ request, search.build = .ok request := by
  cases hfilter : search.filter with
  | none => exact ⟨_, by rw [build, hfilter]; rfl⟩
  | some q =>
      obtain ⟨text, htext⟩ := h q hfilter
      exact ⟨_, by rw [build, hfilter, Option.mapM_some, htext]; rfl⟩

theorem build_of_render_error {q : Expr} {fault : Error} (hfilter : search.filter = some q)
    (hrender : q.render = .error fault) : search.build = .error fault := by
  rw [build, hfilter, Option.mapM_some, hrender]
  rfl

theorem of_build (h : search.build = .ok request) :
    request.indexUid = search.indexUid ∧ request.query = search.query ∧
      search.filter.mapM Expr.render = .ok request.filter ∧ request.options = search.options := by
  rw [build] at h
  cases hfilter : search.filter.mapM Expr.render with
  | error fault => rw [hfilter] at h; cases h
  | ok filter =>
      rw [hfilter] at h
      cases h
      exact ⟨rfl, rfl, rfl, rfl⟩

theorem toJson_of_build (h : search.build = .ok request) : search.toJson = .ok request.toJson := by
  rw [toJson, h]
  rfl

/-- A request carries for every option what is in its slot. -/
theorem carried?_of_build (h : search.build = .ok request) (option : SearchOption) :
    (search.slot option).mapM option.encode = .ok (request.carried? option) := by
  obtain ⟨-, -, hfilter, hoptions⟩ := of_build h
  have hplain {α : Type} (encode : α → Json) (slot : Option α) :
      slot.mapM (fun content => (.ok (encode content) : Except Error Json)) =
        .ok (slot.map encode) := by
    cases slot <;> rfl
  cases option with
  | filter => exact mapM_map_of_mapM_eq_ok Json.string hfilter
  | _ =>
      rw [SearchRequest.carried?, hoptions]
      exact hplain _ _

/-- What a search has set is what its request carries. -/
theorem isSome_carried?_of_build (h : search.build = .ok request) (option : SearchOption) :
    (request.carried? option).isSome = search.isSet option := by
  rw [isSet_eq]
  exact isSome_of_mapM_eq_ok (carried?_of_build h option)

theorem keys_of_build (h : search.build = .ok request) :
    Json.Members.keys request.members =
      "indexUid" :: "q" :: (SearchOption.all.filter search.isSet).map SearchOption.key := by
  rw [SearchRequest.keys_members]
  simp only [isSome_carried?_of_build h]

theorem mem_members_of_build (h : search.build = .ok request) {key : String} {value : Json} :
    (key, value) ∈ request.members ↔ search.Carries key value := by
  obtain ⟨hindexUid, hquery, -, -⟩ := of_build h
  rw [SearchRequest.mem_members_iff, hindexUid, hquery]
  constructor
  · rintro (⟨rfl, rfl⟩ | ⟨rfl, rfl⟩ | ⟨option, hcarried, rfl⟩)
    · exact .indexUid
    · exact .query
    · obtain ⟨content, hslot, hencode⟩ :=
        (eq_some_iff_of_mapM_eq_ok (carried?_of_build h option)).mp hcarried
      exact .option hslot hencode
  · intro hcarries
    cases hcarries with
    | indexUid => exact .inl ⟨rfl, rfl⟩
    | query => exact .inr (.inl ⟨rfl, rfl⟩)
    | option hslot hencode =>
        have hcarried := (eq_some_iff_of_mapM_eq_ok (carried?_of_build h _)).mpr
          ⟨_, hslot, hencode⟩
        exact .inr (.inr ⟨_, hcarried, rfl⟩)

/-- **A request carries what is set, and nothing else.** Whatever is assigned to a search, its
request is an object that has the index, the query and one member for every option that is set. Its
text lists them in the order of the options. A filter that cannot be written is the fault of the whole
request, and requests that are written as the same object are the same. -/
theorem request_carries_set_options (search : IndexSearch) :
    ((∀ q, search.filter = some q → ∃ text, q.render = .ok text) →
      ∃ request members, search.build = .ok request ∧ search.toJson = .ok (.object members) ∧
        (Json.Members.keys members).Nodup ∧
        (∀ key, key ∈ Json.Members.keys members ↔
          key = "indexUid" ∨ key = "q" ∨
            ∃ option, search.isSet option = true ∧ option.key = key) ∧
        (∀ key value, (key, value) ∈ members ↔ search.Carries key value) ∧
        ∃ listed : Json.Members, listed.Perm members ∧
          Json.Members.keys listed =
            "indexUid" :: "q" :: (SearchOption.all.filter search.isSet).map SearchOption.key ∧
          request.text =
            Json.braced (listed.map fun (key, value) => Json.quoted key ++ ":" ++ value.text)) ∧
    (∀ q fault, search.filter = some q → q.render = .error fault →
      search.build = .error fault ∧ search.toJson = .error fault) ∧
    Function.Injective SearchRequest.toJson := by
  refine ⟨?_, ?_, SearchRequest.toJson_injective⟩
  · intro hrenders
    obtain ⟨request, hbuild⟩ := exists_build hrenders
    have hkeys := keys_of_build hbuild
    obtain ⟨members, hobject⟩ : ∃ members, request.toJson = .object members := ⟨_, rfl⟩
    have hperm := SearchRequest.perm_of_toJson_eq hobject
    refine ⟨request, members, hbuild, hobject ▸ toJson_of_build hbuild, ?_, ?_, ?_, request.members,
      hperm.symm, hkeys, ?_⟩
    · exact (Json.Members.perm_keys hperm).nodup_iff.mpr request.nodup_keys_members
    · intro key
      rw [(Json.Members.perm_keys hperm).mem_iff, hkeys]
      simp [SearchOption.mem_all]
    · intro key value
      rw [hperm.mem_iff, mem_members_of_build hbuild]
    · rw [SearchRequest.text, Json.membersText, Json.memberTexts_eq_map]
  · intro q fault hfilter hrender
    have hbuild := build_of_render_error hfilter hrender
    exact ⟨hbuild, by rw [toJson, hbuild]; rfl⟩

theorem request_carries_set_options_filtered :
    let recent : Expr := .single "year__gte" (Scalar.number (.signed 2000))
    let search := ((new "movies" "batman").withFilter recent).withLimit 5
    let faulty := search.withFilter (.single "year__after" .none)
    (∃ members, search.toJson = .ok (.object members) ∧ (Json.Members.keys members).Nodup ∧
      ("filter", .string "year >= 2000") ∈ members ∧ ("limit", .int 5) ∈ members) ∧
    faulty.toJson = .error (.invalidOperator "year__after" "after") := by
  intro recent search faulty
  have hrender : recent.render = .ok "year >= 2000" := by cbv
  have hfault : (Expr.single "year__after" .none).render =
      .error (.invalidOperator "year__after" "after") := by cbv
  have hrenders : ∀ q, search.filter = some q → ∃ text, q.render = .ok text := by
    rintro q ⟨⟩
    exact ⟨_, hrender⟩
  obtain ⟨request, members, -, hjson, hnodup, -, hmembers, -⟩ :=
    (request_carries_set_options search).1 hrenders
  refine ⟨⟨members, hjson, hnodup, ?_, ?_⟩, ?_⟩
  · have hfilter : search.slot .filter = some recent := rfl
    exact (hmembers _ _).mpr (.option hfilter (congrArg (Json.string <$> ·) hrender))
  · have hlimit : search.slot .limit = some (5 : UInt64) := rfl
    exact (hmembers _ _).mpr (.option hlimit rfl)
  · exact ((request_carries_set_options faulty).2.1 _ _ rfl hfault).2

end IndexSearch

end SearchFilter
