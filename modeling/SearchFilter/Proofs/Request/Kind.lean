import SearchFilter.Proofs.Request.Assignment

/-!
# What an option takes

Options are assigned by name, and what an option takes depends on its kind alone: a value of that
kind, if it is not a negative integer, and for the matching strategy also the name of one. Here this
is a relation between values and contents, beside a relation between values and the faults they are
refused with. One of the two holds for every value, so the checks that stand spread over the table of
assignments accept exactly what the kind calls for.
-/

namespace SearchFilter

/-! ### Looking up a name -/

theorem find?_name_eq_none_iff {α : Type} {values : List α} {nameOf : α → String}
    (hall : ∀ a, a ∈ values) {name : String} :
    values.find? (nameOf · == name) = none ↔ ∀ a, nameOf a ≠ name := by
  simp [List.find?_eq_none, hall]

theorem SearchOption.parse_eq_error_of_ne {name : String}
    (h : ∀ option : SearchOption, option.name ≠ name) :
    parse name = .error (.unknownOption name) := by
  rw [parse, (find?_name_eq_none_iff mem_all).mpr h]

theorem MatchingStrategy.mem_values (strategy : MatchingStrategy) : strategy ∈ values := by
  cases strategy <;> simp [values]

theorem MatchingStrategy.parse_eq_error_of_ne {name : String}
    (h : ∀ strategy : MatchingStrategy, strategy.name ≠ name) :
    parse name = .error (.invalidStrategy name) := by
  rw [parse, (find?_name_eq_none_iff mem_values).mpr h]

theorem SearchOption.kind_eq_strategy_iff {option : SearchOption} :
    option.kind = .strategy ↔ option = .matchingStrategy := by
  cases option <;> simp [kind]

namespace OptionKind

/-! ### Kinds and values -/

/-- What an option of a kind holds after it has been assigned a value. -/
inductive Takes : (kind : OptionKind) → OptionValue → kind.Content → Prop where
  | filter (q : Expr) : Takes .filter (.filter q) q
  | integer {n : Int64} {count : UInt64} (hcount : count.toNat = n.toInt) :
      Takes .integer (.integer n) count
  | text (s : String) : Takes .text (.text s) s
  | textList (items : List String) : Takes .textList (.textList items) items
  | flag (b : Bool) : Takes .flag (.flag b) b
  | strategy (s : MatchingStrategy) : Takes .strategy (.strategy s) s
  | strategyName (s : MatchingStrategy) : Takes .strategy (.text s.name) s

/-- Why an option of a kind refuses a value. The target stands for the option in error messages. -/
inductive Refuses (target : String) : OptionKind → OptionValue → Error → Prop where
  | negative {n : Int64} (hn : n < 0) :
      Refuses target .integer (.integer n)
        (.invalidValue target "non-negative integer" "negative integer")
  | unknownStrategy {s : String} (hs : ∀ strategy : MatchingStrategy, strategy.name ≠ s) :
      Refuses target .strategy (.text s) (.invalidStrategy s)
  | mismatch {kind : OptionKind} {value : OptionValue} (hkind : value.kind ≠ kind)
      (htext : ¬(kind = .strategy ∧ value.kind = .text)) :
      Refuses target kind value (.invalidValue target kind.describe value.kind.describe)

variable {target : String} {kind : OptionKind} {value : OptionValue}

theorem not_lt_zero_of_toNat_eq {n : Int64} {count : UInt64} (h : count.toNat = n.toInt) :
    ¬n < 0 := by
  rw [Int64.lt_iff_toInt_lt, ← h]
  simp

theorem toNat_toUInt64_of_nonneg {n : Int64} (hn : 0 ≤ n) : n.toUInt64.toNat = n.toInt := by
  rw [Int64.toNat_toUInt64_of_le hn, Int64.cast_toNatClampNeg n hn]

theorem read_integer (target : String) (n : Int64) :
    read target .integer (.integer n) =
      if n < 0 then .error (.invalidValue target "non-negative integer" "negative integer")
      else .ok n.toUInt64 := rfl

theorem read_of_takes {content : kind.Content} (h : kind.Takes value content) :
    kind.read target value = .ok content := by
  cases h with
  | integer hcount =>
      have hn := not_lt_zero_of_toNat_eq hcount
      rw [read_integer, if_neg hn]
      congr 1
      apply UInt64.toNat_inj.mp
      have hnat := toNat_toUInt64_of_nonneg (Int64.not_lt.mp hn)
      omega
  | strategyName s => exact MatchingStrategy.parse_name s
  | _ => rfl

theorem read_of_refuses {fault : Error} (h : kind.Refuses target value fault) :
    kind.read target value = .error fault := by
  cases h with
  | negative hn => rw [read_integer, if_pos hn]
  | unknownStrategy hs => exact MatchingStrategy.parse_eq_error_of_ne hs
  | mismatch hkind htext =>
      cases kind <;> cases value
      case filter.filter | integer.integer | text.text | textList.textList | flag.flag
          | strategy.strategy => exact absurd rfl hkind
      case strategy.text => exact absurd ⟨rfl, rfl⟩ htext
      all_goals rfl

theorem exists_takes_kind (h : ∀ n, value = .integer n → 0 ≤ n) :
    ∃ content, value.kind.Takes value content := by
  cases value with
  | filter q => exact ⟨q, .filter q⟩
  | integer n => exact ⟨n.toUInt64, .integer (toNat_toUInt64_of_nonneg (h n rfl))⟩
  | text s => exact ⟨s, .text s⟩
  | textList items => exact ⟨items, .textList items⟩
  | flag b => exact ⟨b, .flag b⟩
  | strategy s => exact ⟨s, .strategy s⟩

theorem takes_or_refuses (target : String) (kind : OptionKind) (value : OptionValue) :
    (∃ content, kind.Takes value content) ∨ ∃ fault, kind.Refuses target value fault := by
  by_cases hkind : value.kind = kind
  · subst hkind
    by_cases hnegative : ∃ n, value = .integer n ∧ n < 0
    · obtain ⟨n, rfl, hn⟩ := hnegative
      exact .inr ⟨_, .negative hn⟩
    · refine .inl (exists_takes_kind fun n hvalue => ?_)
      exact Int64.not_lt.mp fun hn => hnegative ⟨n, hvalue, hn⟩
  · by_cases htext : kind = .strategy ∧ value.kind = .text
    · obtain ⟨rfl, hvalue⟩ := htext
      cases value with
      | text s =>
          by_cases hs : ∃ strategy : MatchingStrategy, strategy.name = s
          · obtain ⟨strategy, rfl⟩ := hs
            exact .inl ⟨strategy, .strategyName strategy⟩
          · exact .inr ⟨_, .unknownStrategy (not_exists.mp hs)⟩
      | _ => cases hvalue
    · exact .inr ⟨_, .mismatch hkind htext⟩

theorem exists_takes_iff :
    (∃ content, kind.Takes value content) ↔
      (value.kind = kind ∧ ∀ n, value = .integer n → 0 ≤ n) ∨
        (kind = .strategy ∧ ∃ s : MatchingStrategy, value = .text s.name) := by
  constructor
  · rintro ⟨content, h⟩
    cases h with
    | integer hcount =>
        refine .inl ⟨rfl, ?_⟩
        rintro n ⟨⟩
        exact Int64.not_lt.mp (not_lt_zero_of_toNat_eq hcount)
    | strategyName s => exact .inr ⟨rfl, s, rfl⟩
    | _ => exact .inl ⟨rfl, by simp⟩
  · rintro (⟨rfl, hn⟩ | ⟨rfl, s, rfl⟩)
    · exact exists_takes_kind hn
    · exact ⟨s, .strategyName s⟩

theorem Refuses.ne_unknownOption {fault : Error} (h : kind.Refuses target value fault)
    (name : String) : fault ≠ .unknownOption name := by
  cases h <;> simp

end OptionKind

namespace IndexSearch

/-! ### Assignments by name -/

variable {option : SearchOption} {value : OptionValue}

theorem apply_assign_of_takes {content : option.Content} (h : option.kind.Takes value content)
    (search : IndexSearch) :
    (assign option.name value).apply search = (.ok (), search.put option content) := by
  have hwrite : (Assignment.byName option.name value).write = .ok ⟨option, content⟩ := by
    rw [Assignment.write_byName_name, SearchOption.read, OptionKind.read_of_takes h]
    rfl
  exact Assignment.apply_update_of_ok hwrite search

theorem apply_assign_of_refuses {fault : Error}
    (h : option.kind.Refuses option.name value fault) (search : IndexSearch) :
    (assign option.name value).apply search = (.error fault, search) := by
  have hwrite : (Assignment.byName option.name value).write = .error fault := by
    rw [Assignment.write_byName_name, SearchOption.read, OptionKind.read_of_refuses h]
    rfl
  exact Assignment.apply_update_of_error hwrite search

theorem apply_assign_of_unknown {name : String} (h : ∀ option : SearchOption, option.name ≠ name)
    (value : OptionValue) (search : IndexSearch) :
    (assign name value).apply search = (.error (.unknownOption name), search) := by
  have hwrite : (Assignment.byName name value).write = .error (.unknownOption name) := by
    rw [Assignment.write, SearchOption.parse_eq_error_of_ne h, error_bind]
  exact Assignment.apply_update_of_error hwrite search

theorem decided_apply_assign (search : IndexSearch) (option : SearchOption) (value : OptionValue) :
    let outcome := (assign option.name value).apply search
    Decided outcome.1
      (fun _ => ∃ content, option.kind.Takes value content ∧ outcome.2.slot option = some content)
      (option.kind.Refuses option.name value) where
  ok := by
    rintro _ ⟨content, htakes, -⟩
    rw [apply_assign_of_takes htakes]
  error := by
    intro fault hrefuses
    rw [apply_assign_of_refuses hrefuses]
  total := by
    rcases OptionKind.takes_or_refuses option.name option.kind value with
      ⟨content, htakes⟩ | hrefuses
    · refine .inl ⟨(), content, htakes, ?_⟩
      rw [apply_assign_of_takes htakes]
      exact slot_put_self search option content
    · exact .inr hrefuses

/-- **A named assignment follows the kind of the option.** A name that no option has is refused for
what it is, with any value. Under the name of an option, a value is accepted if it is of the kind of
the option and not a negative integer, or if it names a matching strategy for the option that takes
one. The option then holds that very value. All else is refused for the reason that the kind has
against the value. -/
theorem assignment_by_name_follows_kind (search : IndexSearch) (name : String)
    (value : OptionValue) :
    let outcome := (assign name value).apply search
    (outcome.1 = .error (.unknownOption name) ↔ ∀ option : SearchOption, option.name ≠ name) ∧
    ∀ option : SearchOption, option.name = name →
      (outcome.1 = .ok () ↔
        (value.kind = option.kind ∧ ∀ n, value = .integer n → 0 ≤ n) ∨
          (option = .matchingStrategy ∧ ∃ s : MatchingStrategy, value = .text s.name)) ∧
      (outcome.1 = .ok () →
        ∃ content, option.kind.Takes value content ∧ outcome.2.slot option = some content) ∧
      ∀ fault, outcome.1 = .error fault ↔ option.kind.Refuses name value fault := by
  intro outcome
  refine ⟨⟨?_, ?_⟩, ?_⟩
  · rintro hunknown option rfl
    have hrefuses := (decided_apply_assign search option value).eq_error_iff.mp hunknown
    exact hrefuses.ne_unknownOption _ rfl
  · intro hunknown
    exact congrArg Prod.fst (apply_assign_of_unknown hunknown value search)
  · rintro option rfl
    have hdecided := decided_apply_assign search option value
    refine ⟨?_, hdecided.eq_ok_iff.mp, fun fault => hdecided.eq_error_iff⟩
    rw [← SearchOption.kind_eq_strategy_iff, ← OptionKind.exists_takes_iff]
    constructor
    · intro hok
      obtain ⟨content, htakes, -⟩ := hdecided.eq_ok_iff.mp hok
      exact ⟨content, htakes⟩
    · rintro ⟨content, htakes⟩
      exact congrArg Prod.fst (apply_assign_of_takes htakes search)

theorem assignment_by_name_follows_kind_strategy :
    let search := new "movies" "batman"
    let outcome (name : String) (value : OptionValue) := (assign name value).apply search
    ((outcome "matching_strategy" (.text "all")).1 = .ok () ∧
      (outcome "matching_strategy" (.text "all")).2.slot .matchingStrategy =
        some MatchingStrategy.all) ∧
    (outcome "matching_strategy" (.text "most")).1 = .error (.invalidStrategy "most") ∧
    (outcome "crop_length" (.integer (-1))).1 =
      .error (.invalidValue "crop_length" "non-negative integer" "negative integer") ∧
    (outcome "filter" (.text "a = 1")).1 =
      .error (.invalidValue "filter" "filter expression" "text") ∧
    (outcome "cropLength" (.integer 1)).1 = .error (.unknownOption "cropLength") := by
  intro search outcome
  have hnamed := assignment_by_name_follows_kind search
  obtain ⟨haccepted, hheld, -⟩ :=
    (hnamed "matching_strategy" (.text "all")).2 .matchingStrategy rfl
  have hok := haccepted.mpr (.inr ⟨rfl, .all, rfl⟩)
  obtain ⟨content, htakes, hslot⟩ := hheld hok
  have hcontent : content = MatchingStrategy.all := by
    have hread : OptionKind.read "" .strategy (.text "all") = .ok content :=
      OptionKind.read_of_takes htakes
    exact Except.ok.inj hread.symm
  refine ⟨⟨hok, hcontent ▸ hslot⟩, ?_, ?_, ?_, ?_⟩
  · exact (((hnamed _ _).2 .matchingStrategy rfl).2.2 _).mpr
      (.unknownStrategy fun strategy => by cases strategy <;> decide)
  · exact (((hnamed _ _).2 .cropLength rfl).2.2 _).mpr (.negative (by decide))
  · exact (((hnamed _ _).2 .filter rfl).2.2 _).mpr (.mismatch (by decide) (by decide))
  · exact (hnamed _ _).1.mpr fun option => by cases option <;> decide

end IndexSearch

end SearchFilter
