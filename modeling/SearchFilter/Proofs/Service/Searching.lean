import SearchFilter.Proofs.Request.Members
import SearchFilter.Proofs.Service.Recorded
import SearchFilter.Service.Index

/-!
# What a service sees of a search

A search is put together before the service is called. So a fault in the input leaves the service
untouched, and otherwise the service is called once and its answer is handed on. A batch has one
request for each of its searches, or is not sent. The parameters of a search of one index are the
caller's options and, where these leave room for it, the text of the filter.
-/

namespace SearchFilter

variable {σ ε α : Type}

namespace Recording

/-- What is observed where the input has a fault: no call, and a service left as it was. -/
def refused (fault : Error) (s : σ) : (Except (ServiceError ε) α × List Action) × σ :=
  ((.error (.input fault), []), s)

/-- What is observed where one call is made and its answer handed on, with an error of the service
marked as one. -/
def relayed (call : Call) (work : StateM σ (Except ε α)) (s : σ) :
    (Except (ServiceError ε) α × List Action) × σ :=
  (((work.run s).1.mapError .service, [.call call]), (work.run s).2)

def relay (call : Call) (work : StateM σ (Except ε α)) :
    Recording σ (Except (ServiceError ε) α) := do
  let answer ← (do note (.call call); work : Recording σ (Except ε α))
  return answer.mapError .service

theorem observe_refusal (fault : Error) (s : σ) :
    observe [] (pure (.error (.input fault)) : Recording σ (Except (ServiceError ε) α)) s =
      refused fault s := rfl

theorem observe_relay (call : Call) (work : StateM σ (Except ε α)) (s : σ) :
    observe [] (relay call work) s = relayed call work s := rfl

theorem records_relay (call : Call) (work : StateM σ (Except ε α)) :
    Records (relay call work) (do let answer ← work; return answer.mapError .service) :=
  fun _ _ => rfl

end Recording

open Recording

/-! ### Filters -/

/-- There is no filter and no text, or the text is that of the filter. -/
def FilterWritten (filter : Option Expr) (text : Option String) : Prop :=
  Option.Rel (fun q text => q.render = .ok text) filter text

/-- The filter has a fault that is found when it is written. -/
def FilterFaulty (filter : Option Expr) (fault : Error) : Prop :=
  ∃ q, filter = some q ∧ q.render = .error fault

theorem mapM_render_eq_ok_iff {filter : Option Expr} {text : Option String} :
    filter.mapM Expr.render = .ok text ↔ FilterWritten filter text :=
  option_mapM_eq_ok_iff

theorem mapM_render_eq_error_iff {filter : Option Expr} {fault : Error} :
    filter.mapM Expr.render = .error fault ↔ FilterFaulty filter fault :=
  option_mapM_eq_error_iff

theorem filterWritten_or_filterFaulty (filter : Option Expr) :
    (∃ text, FilterWritten filter text) ∨ ∃ fault, FilterFaulty filter fault := by
  cases hwrite : filter.mapM Expr.render with
  | ok text => exact .inl ⟨text, mapM_render_eq_ok_iff.mp hwrite⟩
  | error fault => exact .inr ⟨fault, mapM_render_eq_error_iff.mp hwrite⟩

/-- A search cannot be built if its filter cannot be written, and for no other reason. -/
theorem IndexSearch.build_eq_error_iff {search : IndexSearch} {fault : Error} :
    search.build = .error fault ↔ FilterFaulty search.filter fault := by
  rw [build, bind_pure_comp, map_eq_error_iff, mapM_render_eq_error_iff]

theorem IndexSearch.exists_build_of_render {search : IndexSearch} {q : Expr} {text : String}
    (hfilter : search.filter = some q) (hrender : q.render = .ok text) :
    ∃ request, search.build = .ok request ∧ request.filter = some text := by
  have hrenders : ∀ q', search.filter = some q' → ∃ text', q'.render = .ok text' := by
    intro q' hq'
    obtain rfl := Option.some.inj (hq'.symm.trans hfilter)
    exact ⟨text, hrender⟩
  obtain ⟨request, hbuild⟩ := exists_build hrenders
  obtain ⟨-, -, hrequest, -⟩ := of_build hbuild
  rw [hfilter, Option.mapM_some, hrender] at hrequest
  exact ⟨request, hbuild, (Except.ok.inj hrequest).symm⟩

/-! ### Batches -/

namespace SearchService

/-- Each search has a request of its own, in the same order. -/
def Requests (searches : List IndexSearch) (requests : List SearchRequest) : Prop :=
  List.Forall₂ (fun search request => search.build = .ok request) searches requests

/-- The fault is that of the first search that cannot be built, which lies in its filter. -/
def FirstFault (searches : List IndexSearch) (fault : Error) : Prop :=
  ∃ before search after, searches = before ++ search :: after ∧
    (search.build = .error fault ∧ FilterFaulty search.filter fault) ∧
    ∀ earlier ∈ before, ∃ request, earlier.build = .ok request

theorem mapM_build_eq_error_iff {searches : List IndexSearch} {fault : Error} :
    searches.mapM IndexSearch.build = .error fault ↔ FirstFault searches fault := by
  simp only [mapM_eq_error_iff, FirstFault, ← IndexSearch.build_eq_error_iff, and_self]

theorem requests_or_firstFault (searches : List IndexSearch) :
    (∃ requests, Requests searches requests) ∨ ∃ fault, FirstFault searches fault := by
  cases hbuild : searches.mapM IndexSearch.build with
  | ok requests => exact .inl ⟨requests, mapM_eq_ok_iff.mp hbuild⟩
  | error fault => exact .inr ⟨fault, mapM_build_eq_error_iff.mp hbuild⟩

section Submit

variable (service : SearchService (StateM σ) ε) {searches : List IndexSearch}

theorem submit_recorded_of_requests {requests : List SearchRequest}
    (h : Requests searches requests) :
    service.recorded.submit searches =
      relay (.multiSearch requests) (service.multiSearch requests) := by
  rw [submit, mapM_eq_ok_iff.mpr h]
  rfl

theorem submit_of_firstFault {m : Type → Type _} [Monad m] (service : SearchService m ε)
    {fault : Error} (h : FirstFault searches fault) :
    service.submit searches = pure (.error (.input fault)) := by
  rw [submit, mapM_build_eq_error_iff.mpr h]

theorem records_submit (searches : List IndexSearch) :
    Records (service.recorded.submit searches) (service.submit searches) := by
  rcases requests_or_firstFault searches with ⟨requests, h⟩ | ⟨fault, h⟩
  · rw [submit_recorded_of_requests service h, submit, mapM_eq_ok_iff.mpr h]
    exact records_relay _ _
  · rw [submit_of_firstFault _ h, submit_of_firstFault _ h]
    exact records_pure _

/-- **All or nothing.** If all searches of a batch can be built, the service gets their requests in
one call, one for each search and in the same order, and its answer is the answer. Otherwise the
first fault is reported, and the service is not called. It does not matter which index the batch is
sent from. -/
theorem submit_all_or_nothing (searches : List IndexSearch) (s : σ) :
    let seen := observe [] (service.recorded.submit searches) s
    (∀ requests, Requests searches requests →
      seen = relayed (.multiSearch requests) (service.multiSearch requests) s) ∧
    (∀ fault, FirstFault searches fault → seen = refused fault s) ∧
    ((∃ requests, Requests searches requests) ∨ ∃ fault, FirstFault searches fault) ∧
    Id.run ((service.submit searches).run s) = (seen.1.1, seen.2) ∧
    ∀ uid, Index.multiSearch ⟨service, uid⟩ searches = service.submit searches ∧
      Index.multiSearch ⟨service.recorded, uid⟩ searches = service.recorded.submit searches := by
  intro seen
  refine ⟨?_, ?_, requests_or_firstFault searches, (records_submit service searches [] s).symm, ?_⟩
  · intro requests hrequests
    rw [← observe_relay, ← submit_recorded_of_requests service hrequests]
  · intro fault hfault
    rw [← observe_refusal, ← submit_of_firstFault service.recorded hfault]
  · exact fun uid => ⟨rfl, rfl⟩

theorem submit_all_or_nothing_second_faulty :
    let plain := IndexSearch.new "books" "dune"
    let recent := (IndexSearch.new "movies" "batman").withFilter
      (.single "year__gte" (Scalar.number (.signed 2000)))
    let faulty := (IndexSearch.new "movies" "robin").withFilter (.single "year__after" .none)
    let sent searches := observe [] (Script.service.recorded.submit searches) {}
    sent [plain, faulty, recent] = refused (.invalidOperator "year__after" "after") {} ∧
      ∃ requests, Requests [plain, recent] requests ∧
        requests.map (·.filter) = [none, some "year >= 2000"] ∧
        (sent [plain, recent]).1.1 = .ok [.string "books", .string "movies"] ∧
        (sent [plain, recent]).1.2 = [.call (.multiSearch requests)] := by
  intro plain recent faulty sent
  have hfault : (Expr.single "year__after" .none).render =
      .error (.invalidOperator "year__after" "after") := by cbv
  have hrender : (Expr.single "year__gte" (Scalar.number (.signed 2000))).render =
      .ok "year >= 2000" := by cbv
  have hplain : plain.build = .ok ⟨"books", "dune", none, {}⟩ := rfl
  have hrecent : recent.build = .ok ⟨"movies", "batman", some "year >= 2000", {}⟩ := by
    rw [IndexSearch.build, show recent.filter = some _ from rfl, Option.mapM_some, hrender]
    rfl
  have hfaulty : FilterFaulty faulty.filter (.invalidOperator "year__after" "after") :=
    ⟨_, rfl, hfault⟩
  have hfirst : FirstFault [plain, faulty, recent] (.invalidOperator "year__after" "after") := by
    have hbuild := IndexSearch.build_eq_error_iff.mpr hfaulty
    refine ⟨[plain], faulty, [recent], rfl, ⟨hbuild, hfaulty⟩, ?_⟩
    intro earlier hearlier
    rw [List.mem_singleton] at hearlier
    exact ⟨_, hearlier ▸ hplain⟩
  have hrequests : Requests [plain, recent] _ := .cons hplain (.cons hrecent .nil)
  have hsent := (submit_all_or_nothing Script.service [plain, recent] {}).1 _ hrequests
  exact ⟨(submit_all_or_nothing Script.service [plain, faulty, recent] {}).2.1 _ hfirst,
    _, hrequests, rfl, congrArg (·.1.1) hsent, congrArg (·.1.2) hsent⟩

end Submit

end SearchService

/-! ### Parameters -/

namespace Index

open Json.Members

/-- The parameters are the options that the caller gives and, if these have no filter, the text of
the filter that is searched with. -/
structure Overlaid (text : Option String) (options params : Json.Members) : Prop where
  sorted : Sorted params
  given : ∀ key value, get? options key = some value → get? params key = some value
  filter : get? options "filter" = none → get? params "filter" = text.map Json.string
  others : ∀ key, key ≠ "filter" → get? options key = none → get? params key = none

def textParameter (text : Option String) : Json.Members :=
  text.toList.map fun text => ("filter", Json.string text)

theorem overlaid_extend (text : Option String) {options : Json.Members}
    (hoptions : (keys options).Nodup) :
    Overlaid text options (extend (textParameter text) options) where
  sorted := by
    have htext : Sorted (textParameter text) := by
      cases text with
      | none => exact .nil
      | some text => exact List.pairwise_singleton _ _
    exact sorted_extend htext options
  given key value h := by rw [get?_extend hoptions, h, Option.some_or]
  filter h := by
    rw [get?_extend hoptions, h, Option.none_or]
    cases text <;> simp [textParameter, get?]
  others key hkey h := by
    rw [get?_extend hoptions, h, Option.none_or]
    cases text <;> simp [textParameter, get?, hkey]

section Search

variable (service : SearchService (StateM σ) ε) (uid query : String) {filter : Option Expr}

theorem parameters_of_written {text : Option String} (h : FilterWritten filter text)
    (options : Option Json.Members) :
    parameters filter options = .ok (extend (textParameter text) (options.getD [])) := by
  rw [parameters, mapM_render_eq_ok_iff.mpr h]
  rfl

theorem parameters_of_faulty {fault : Error} (h : FilterFaulty filter fault)
    (options : Option Json.Members) : parameters filter options = .error fault := by
  rw [parameters, mapM_render_eq_error_iff.mpr h]
  rfl

theorem search_recorded_of_written {text : Option String} (h : FilterWritten filter text)
    (options : Option Json.Members) :
    Index.search ⟨service.recorded, uid⟩ query filter options =
      let params := extend (textParameter text) (options.getD [])
      relay (.search uid query params) (service.search uid query params) := by
  rw [search, parameters_of_written h]
  rfl

theorem search_of_faulty {m : Type → Type _} [Monad m] (index : Index m ε) {fault : Error}
    (h : FilterFaulty filter fault) (options : Option Json.Members) :
    index.search query filter options = pure (.error (.input fault)) := by
  rw [search, parameters_of_faulty h]

theorem records_search (filter : Option Expr) (options : Option Json.Members) :
    Records (Index.search ⟨service.recorded, uid⟩ query filter options)
      (Index.search ⟨service, uid⟩ query filter options) := by
  rcases filterWritten_or_filterFaulty filter with ⟨text, h⟩ | ⟨fault, h⟩
  · rw [search_recorded_of_written service uid query h, search, parameters_of_written h]
    exact records_relay _ _
  · rw [search_of_faulty _ _ h, search_of_faulty _ _ h]
    exact records_pure _

/-- **Options go over the filter.** The options are an object, so each of their keys occurs once. A
filter with a fault is reported without a call of the service, even if the options replace it.
Otherwise the service is called once, with the options and the text of the filter as far as the
options have none, and its answer is the answer. The text of a filter is the one that a request
carries. -/
theorem search_overlays_options (filter : Option Expr) (options : Option Json.Members)
    (hoptions : (keys (options.getD [])).Nodup) (s : σ) :
    let seen := observe [] (Index.search ⟨service.recorded, uid⟩ query filter options) s
    (∀ fault, FilterFaulty filter fault → seen = refused fault s) ∧
    (∀ text, FilterWritten filter text → ∃ params, Overlaid text (options.getD []) params ∧
      seen = relayed (.search uid query params) (service.search uid query params) s) ∧
    ((∃ text, FilterWritten filter text) ∨ ∃ fault, FilterFaulty filter fault) ∧
    (∀ q text, filter = some q → q.render = .ok text → options.getD [] = [] →
      seen.1.2 = [.call (.search uid query [("filter", .string text)])] ∧
      ∀ search : IndexSearch, search.filter = some q →
        ∃ request, search.build = .ok request ∧ request.filter = some text) ∧
    Id.run ((Index.search ⟨service, uid⟩ query filter options).run s) = (seen.1.1, seen.2) := by
  intro seen
  have hwritten (text : Option String) (h : FilterWritten filter text) :
      let params := extend (textParameter text) (options.getD [])
      seen = relayed (.search uid query params) (service.search uid query params) s := by
    intro params
    rw [← observe_relay, ← search_recorded_of_written service uid query h]
  refine ⟨?_, ?_, filterWritten_or_filterFaulty filter, ?_,
    (records_search service uid query filter options [] s).symm⟩
  · intro fault hfault
    rw [← observe_refusal, ← search_of_faulty query ⟨service.recorded, uid⟩ hfault options]
  · exact fun text h => ⟨_, overlaid_extend text hoptions, hwritten text h⟩
  · rintro q text rfl hrender hnone
    refine ⟨?_, fun search hfilter =>
      IndexSearch.exists_build_of_render hfilter hrender⟩
    rw [hwritten (some text) (.some hrender), hnone]
    rfl

theorem search_overlays_options_own_filter :
    let recent : Expr := .single "year__gte" (Scalar.number (.signed 2000))
    let options : Json.Members := [("filter", .string "genre = crime"), ("limit", .int 5)]
    let seen filter :=
      observe [] (Index.search ⟨Script.service.recorded, "movies"⟩ "batman" filter options) {}
    (∃ params, get? params "filter" = some (.string "genre = crime") ∧
      get? params "limit" = some (.int 5) ∧ get? params "offset" = none ∧
      (seen (some recent)).1.2 = [.call (.search "movies" "batman" params)]) ∧
    seen (some (.single "year__after" .none)) =
      refused (.invalidOperator "year__after" "after") {} := by
  intro recent options seen
  have hrender : recent.render = .ok "year >= 2000" := by cbv
  have hfault : (Expr.single "year__after" .none).render =
      .error (.invalidOperator "year__after" "after") := by cbv
  have hoptions : (keys ((some options).getD [])).Nodup := by decide
  have hseen (filter : Option Expr) :=
    search_overlays_options Script.service "movies" "batman" filter (some options) hoptions {}
  obtain ⟨params, hover, hsent⟩ := (hseen (some recent)).2.1 _ (.some hrender)
  refine ⟨⟨params, hover.given _ _ rfl, hover.given _ _ rfl, hover.others _ ?_ rfl,
    congrArg (·.1.2) hsent⟩, (hseen _).1 _ ⟨_, rfl, hfault⟩⟩
  decide

end Search

end Index

end SearchFilter
