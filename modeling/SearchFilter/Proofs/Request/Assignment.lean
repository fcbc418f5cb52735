import SearchFilter.Proofs.Fault
import SearchFilter.Proofs.Request.Slot
import Mathlib.Data.List.Basic

/-!
# Runs of assignments

A search is put together by a run of assignments, of which some are refused. What an assignment
writes, or the fault it is refused for, does not depend on the search, and a refused one writes
nothing. So a run leaves in each slot the last content that was written to it, and the order matters
only among assignments to one slot.
-/

namespace SearchFilter

structure Write where
  option : SearchOption
  content : option.Content

/-- The content that is written to the slot of an option. -/
def Write.for? (option : SearchOption) (write : Write) : Option option.Content :=
  if h : write.option = option then some (h ▸ write.content) else none

inductive Assignment where
  | byName (name : String) (value : OptionValue)
  | checked (option : SearchOption) (value : OptionValue)
  | setter (option : SearchOption) (content : option.Content)

namespace Assignment

def update : Assignment → IndexSearch.Update Unit
  | byName name value => IndexSearch.assign name value
  | checked option value => IndexSearch.assignOption option value
  | setter option content => modify (·.put option content)

/-- The option that the assignment is meant for. There may be none of that name. -/
def option? : Assignment → Option SearchOption
  | byName name _ => SearchOption.all.find? (·.name == name)
  | checked option _ | setter option _ => some option

/-- What the assignment writes, or why it is refused. -/
def write : Assignment → Except Error Write
  | byName name value => do
    let option ← SearchOption.parse name
    Write.mk option <$> option.read value
  | checked option value => Write.mk option <$> option.read value
  | setter option content => .ok ⟨option, content⟩

/-- The content that the assignment has for the slot of an option. -/
def contentFor? (option : SearchOption) (step : Assignment) : Option option.Content :=
  step.write.toOption.bind (Write.for? option)

/-- Whatever the way, an assignment first finds out what it writes. -/
theorem update_eq (step : Assignment) :
    step.update = (do let write ← step.write; modify (·.put write.option write.content)) := by
  have hchecked (option : SearchOption) (value : OptionValue) :
      IndexSearch.assignOption option value =
        (do let write ← (checked option value).write
            modify (·.put write.option write.content)) := by
    rw [IndexSearch.assignOption_eq, write]
    cases option.read value <;> rfl
  cases step with
  | byName name value =>
      rw [update, write, IndexSearch.assign]
      cases SearchOption.parse name with
      | error fault => rfl
      | ok option => exact hchecked option value
  | checked option value => exact hchecked option value
  | setter option content => rfl

/-- Since the finding out comes before the writing, a refusal leaves no trace. -/
theorem apply_update (step : Assignment) (search : IndexSearch) :
    step.update.apply search =
      match step.write with
      | .ok write => (.ok (), search.put write.option write.content)
      | .error fault => (.error fault, search) := by
  rw [update_eq]
  cases step.write with
  | error fault => rfl
  | ok write => rfl

theorem apply_update_of_ok {step : Assignment} {write : Write} (h : step.write = .ok write)
    (search : IndexSearch) :
    step.update.apply search = (.ok (), search.put write.option write.content) := by
  rw [apply_update, h]

theorem apply_update_of_error {step : Assignment} {fault : Error} (h : step.write = .error fault)
    (search : IndexSearch) : step.update.apply search = (.error fault, search) := by
  rw [apply_update, h]

theorem write_byName_name (option : SearchOption) (value : OptionValue) :
    (byName option.name value).write = Write.mk option <$> option.read value := by
  rw [write, SearchOption.parse_name, ok_bind]

/-- The functional forms of an assignment give the search that the assignment leaves behind. -/
theorem setOption_eq (search : IndexSearch) (option : SearchOption) (value : OptionValue) :
    search.setOption option value =
      (fun write => search.put write.option write.content) <$> (checked option value).write := by
  have happly := apply_update (checked option value) search
  rw [update] at happly
  rw [IndexSearch.setOption, happly]
  cases (checked option value).write <;> rfl

theorem set_eq (search : IndexSearch) (name : String) (value : OptionValue) :
    search.set name value =
      (fun write => search.put write.option write.content) <$> (byName name value).write := by
  have happly := apply_update (byName name value) search
  rw [update] at happly
  rw [IndexSearch.set, happly]
  cases (byName name value).write <;> rfl

theorem option?_of_write {step : Assignment} {write : Write} (h : step.write = .ok write) :
    step.option? = some write.option := by
  cases step with
  | byName name value =>
      obtain ⟨option, hname, hread⟩ := bind_eq_ok_iff.mp h
      obtain ⟨content, -, rfl⟩ := map_eq_ok_iff.mp hread
      rw [SearchOption.parse] at hname
      rw [option?]
      cases hfind : SearchOption.all.find? (·.name == name) with
      | none => rw [hfind] at hname; cases hname
      | some found => rw [hfind] at hname; rw [Except.ok.inj hname]
  | checked option value =>
      obtain ⟨content, -, rfl⟩ := map_eq_ok_iff.mp h
      rfl
  | setter option content =>
      obtain rfl := Except.ok.inj h
      rfl

/-- An assignment that is not refused has a content for the option it is meant for, and for no
other. -/
theorem isSome_contentFor?_iff {step : Assignment} {write : Write} (h : step.write = .ok write)
    (option : SearchOption) :
    (step.contentFor? option).isSome = true ↔ step.option? = some option := by
  rw [contentFor?, h, option?_of_write h]
  by_cases htarget : write.option = option
  · simp [Except.toOption, Write.for?, htarget]
  · simp [Except.toOption, Write.for?, htarget]

theorem contentFor?_of_error {step : Assignment} {fault : Error} (h : step.write = .error fault)
    (option : SearchOption) : step.contentFor? option = none := by
  rw [contentFor?, h]
  rfl

theorem contentFor?_eq_none {step : Assignment} {option : SearchOption}
    (h : step.option? ≠ some option) : step.contentFor? option = none := by
  cases hwrite : step.write with
  | error fault => exact contentFor?_of_error hwrite option
  | ok write =>
      have hnone := mt (isSome_contentFor?_iff hwrite option).mp h
      simpa using hnone

end Assignment

namespace IndexSearch

/-- The search after an assignment, be it refused or not. -/
def after (search : IndexSearch) (step : Assignment) : IndexSearch :=
  (step.update.apply search).2

def run (search : IndexSearch) (steps : List Assignment) : IndexSearch :=
  steps.foldl after search

/-- The assignments of a run that are not refused. -/
def accepted (search : IndexSearch) : List Assignment → List Assignment
  | [] => []
  | step :: rest =>
    match step.update.apply search with
    | (.ok _, next) => step :: next.accepted rest
    | (.error _, next) => next.accepted rest

/-! ### One assignment -/

theorem after_of_ok {step : Assignment} {write : Write} (h : step.write = .ok write)
    (search : IndexSearch) : search.after step = search.put write.option write.content := by
  rw [after, Assignment.apply_update_of_ok h]

theorem after_of_error {step : Assignment} {fault : Error} (h : step.write = .error fault)
    (search : IndexSearch) : search.after step = search := by
  rw [after, Assignment.apply_update_of_error h]

theorem accepted_cons_of_ok {step : Assignment} {write : Write} (h : step.write = .ok write)
    (search : IndexSearch) (rest : List Assignment) :
    search.accepted (step :: rest) = step :: (search.after step).accepted rest := by
  rw [accepted, after, Assignment.apply_update, h]

theorem accepted_cons_of_error {step : Assignment} {fault : Error} (h : step.write = .error fault)
    (search : IndexSearch) (rest : List Assignment) :
    search.accepted (step :: rest) = search.accepted rest := by
  rw [accepted, Assignment.apply_update, h]

theorem slot_after (search : IndexSearch) (step : Assignment) (option : SearchOption) :
    (search.after step).slot option = (step.contentFor? option).or (search.slot option) := by
  cases hwrite : step.write with
  | error fault =>
      rw [after_of_error hwrite, Assignment.contentFor?, hwrite]
      rfl
  | ok write =>
      rw [after_of_ok hwrite, slot_put, Assignment.contentFor?, hwrite]
      obtain ⟨target, content⟩ := write
      by_cases h : target = option
      · subst h
        simp [Write.for?, Except.toOption]
      · simp [Write.for?, Except.toOption, h, Function.update_of_ne (Ne.symm h)]

theorem indexUid_after (search : IndexSearch) (step : Assignment) :
    (search.after step).indexUid = search.indexUid := by
  cases hwrite : step.write with
  | error fault => rw [after_of_error hwrite]
  | ok write => rw [after_of_ok hwrite, indexUid_put]

theorem query_after (search : IndexSearch) (step : Assignment) :
    (search.after step).query = search.query := by
  cases hwrite : step.write with
  | error fault => rw [after_of_error hwrite]
  | ok write => rw [after_of_ok hwrite, query_put]

/-- Assignments to different options do not get in each other's way. -/
theorem after_comm {first second : Assignment} (h : first.option? ≠ second.option?)
    (search : IndexSearch) :
    (search.after first).after second = (search.after second).after first := by
  apply eq_of_slot_eq
  · rw [indexUid_after, indexUid_after, indexUid_after, indexUid_after]
  · rw [query_after, query_after, query_after, query_after]
  · intro option
    rw [slot_after, slot_after, slot_after, slot_after]
    by_cases hfirst : first.option? = some option
    · have hsecond : second.option? ≠ some option := fun hsecond => h (hfirst.trans hsecond.symm)
      rw [Assignment.contentFor?_eq_none hsecond, Option.none_or, Option.none_or]
    · rw [Assignment.contentFor?_eq_none hfirst, Option.none_or, Option.none_or]

/-! ### Runs -/

theorem run_cons (search : IndexSearch) (step : Assignment) (rest : List Assignment) :
    search.run (step :: rest) = (search.after step).run rest := rfl

theorem run_append (search : IndexSearch) (before later : List Assignment) :
    search.run (before ++ later) = (search.run before).run later :=
  List.foldl_append

theorem indexUid_run (search : IndexSearch) (steps : List Assignment) :
    (search.run steps).indexUid = search.indexUid := by
  induction steps generalizing search with
  | nil => rfl
  | cons step rest ih => rw [run_cons, ih, indexUid_after]

theorem query_run (search : IndexSearch) (steps : List Assignment) :
    (search.run steps).query = search.query := by
  induction steps generalizing search with
  | nil => rfl
  | cons step rest ih => rw [run_cons, ih, query_after]

/-- A slot holds what was written to it last, or what it held before. -/
theorem slot_run (search : IndexSearch) (steps : List Assignment) (option : SearchOption) :
    (search.run steps).slot option =
      (steps.filterMap (·.contentFor? option)).getLast?.or (search.slot option) := by
  induction steps generalizing search with
  | nil => rfl
  | cons step rest ih =>
      rw [run_cons, ih, slot_after]
      cases hcontent : step.contentFor? option with
      | none => rw [List.filterMap_cons_none hcontent, Option.none_or]
      | some content =>
          -- A later content for the slot hides this one.
          rw [List.filterMap_cons_some hcontent, List.getLast?_cons]
          cases (rest.filterMap (·.contentFor? option)).getLast? <;> rfl

theorem mem_accepted {search : IndexSearch} {step : Assignment} {steps : List Assignment} :
    step ∈ search.accepted steps ↔ step ∈ steps ∧ ∃ write, step.write = .ok write := by
  induction steps generalizing search with
  | nil => simp [accepted]
  | cons first rest ih =>
      cases hwrite : first.write with
      | error fault =>
          rw [accepted_cons_of_error hwrite, ih, List.mem_cons]
          constructor
          · exact fun ⟨hmem, hok⟩ => ⟨.inr hmem, hok⟩
          · rintro ⟨rfl | hmem, hok⟩
            · simp [hwrite] at hok
            · exact ⟨hmem, hok⟩
      | ok write =>
          rw [accepted_cons_of_ok hwrite, List.mem_cons, ih, List.mem_cons]
          constructor
          · rintro (rfl | ⟨hmem, hok⟩)
            · exact ⟨.inl rfl, write, hwrite⟩
            · exact ⟨.inr hmem, hok⟩
          · rintro ⟨rfl | hmem, hok⟩
            · exact .inl rfl
            · exact .inr ⟨hmem, hok⟩

theorem filterMap_accepted (search : IndexSearch) (steps : List Assignment)
    (option : SearchOption) :
    (search.accepted steps).filterMap (·.contentFor? option) =
      steps.filterMap (·.contentFor? option) := by
  induction steps generalizing search with
  | nil => rfl
  | cons step rest ih =>
      cases hwrite : step.write with
      | error fault =>
          rw [accepted_cons_of_error hwrite, ih,
            List.filterMap_cons_none (Assignment.contentFor?_of_error hwrite option)]
      | ok write => rw [accepted_cons_of_ok hwrite, List.filterMap_cons, ih, ← List.filterMap_cons]

theorem run_accepted (search : IndexSearch) (steps : List Assignment) :
    search.run (search.accepted steps) = search.run steps := by
  induction steps generalizing search with
  | nil => rfl
  | cons step rest ih =>
      cases hwrite : step.write with
      | error fault => rw [accepted_cons_of_error hwrite, ih, run_cons, after_of_error hwrite]
      | ok write => rw [accepted_cons_of_ok hwrite, run_cons, ih, run_cons]

theorem isSet_run_new_iff (indexUid query : String) (steps : List Assignment)
    (option : SearchOption) :
    ((new indexUid query).run steps).isSet option = true ↔
      ∃ step ∈ (new indexUid query).accepted steps, step.option? = some option := by
  rw [isSet_eq, slot_run, slot_new, Option.or_none, ← filterMap_accepted (new indexUid query),
    List.getLast?_isSome]
  constructor
  · intro hne
    obtain ⟨content, hcontent⟩ := List.exists_mem_of_ne_nil _ hne
    obtain ⟨step, hstep, hfor⟩ := List.mem_filterMap.mp hcontent
    obtain ⟨write, hwrite⟩ := (mem_accepted.mp hstep).2
    exact ⟨step, hstep, (Assignment.isSome_contentFor?_iff hwrite option).mp (by rw [hfor]; rfl)⟩
  · rintro ⟨step, hstep, htarget⟩
    obtain ⟨write, hwrite⟩ := (mem_accepted.mp hstep).2
    obtain ⟨content, hfor⟩ :=
      Option.isSome_iff_exists.mp ((Assignment.isSome_contentFor?_iff hwrite option).mpr htarget)
    exact List.ne_nil_of_mem (List.mem_filterMap.mpr ⟨step, hstep, hfor⟩)

/-- **The last accepted assignment wins.** Whatever is assigned to a new search in whatever order, it
keeps its index and its query, and every slot holds the content of the last assignment to it that was
not refused. A refused assignment changes nothing and can be left out, and two neighbours that are
meant for different options can change places. -/
theorem last_accepted_assignment_wins (indexUid query : String) (steps : List Assignment) :
    let start := new indexUid query
    let final := start.run steps
    (final.indexUid = indexUid ∧ final.query = query) ∧
    (∀ option, final.slot option =
      ((start.accepted steps).filterMap (·.contentFor? option)).getLast?) ∧
    (∀ option, final.isSet option = true ↔
      ∃ step ∈ start.accepted steps, step.option? = some option) ∧
    (∀ (search : IndexSearch) (step : Assignment) (fault : Error),
      (step.update.apply search).1 = .error fault → (step.update.apply search).2 = search) ∧
    start.run (start.accepted steps) = final ∧
    ∀ before first second later, steps = before ++ first :: second :: later →
      first.option? ≠ second.option? → start.run (before ++ second :: first :: later) = final := by
  intro start final
  refine ⟨⟨?_, ?_⟩, ?_, isSet_run_new_iff indexUid query steps, ?_, run_accepted start steps, ?_⟩
  · exact indexUid_run start steps
  · exact query_run start steps
  · intro option
    rw [slot_run, slot_new, Option.or_none, filterMap_accepted]
  · intro search step fault hrefused
    cases hwrite : step.write with
    | error fault' => exact after_of_error hwrite search
    | ok write => simp [Assignment.apply_update, hwrite] at hrefused
  · rintro before first second later rfl hoptions
    have hfinal : final = (((start.run before).after first).after second).run later := by
      rw [← run_cons, ← run_cons, ← run_append]
    rw [hfinal, after_comm hoptions, run_append, run_cons, run_cons]

theorem last_accepted_assignment_wins_limit :
    let start := new "movies" "batman"
    let before : List Assignment :=
      [.checked .limit (.integer 5), .byName "limit" (.integer (-1)), .byName "limt" (.integer 1)]
    let first : Assignment := .setter .limit (7 : UInt64)
    let second : Assignment := .byName "facets" (.textList ["genre"])
    let final := start.run (before ++ [first, second])
    final.slot .limit = some (7 : UInt64) ∧ final.isSet .offset = false ∧
      first.option? ≠ second.option? ∧ start.run (before ++ [second, first]) = final := by
  intro start before first second final
  obtain ⟨-, hslot, hisSet, -, -, hswap⟩ :=
    last_accepted_assignment_wins "movies" "batman" (before ++ [first, second])
  have haccepted : start.accepted (before ++ [first, second]) =
      [.checked .limit (.integer 5), first, second] := rfl
  have hoptions : first.option? ≠ second.option? := by decide
  refine ⟨?_, ?_, hoptions, hswap before first second [] rfl hoptions⟩
  · rw [hslot]
    rfl
  · rw [← Bool.not_eq_true, hisSet, haccepted]
    decide

end IndexSearch

end SearchFilter
