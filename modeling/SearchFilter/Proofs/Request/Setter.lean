import SearchFilter.Proofs.Request.Kind

/-!
# Setters and names

Every option has a setter of its own, and can be assigned under its name as well. The two ways meet
in the same slot. They differ for counts alone: a setter takes any count of 64 bits, while a named
assignment goes by way of a signed integer, in which the greater half of the counts has no room. What
is too great becomes the greatest signed integer, so nothing is wrapped around and nothing changes its
sign.
-/

namespace SearchFilter

/-- An integer of one of the types in which a count can be given. A size is of the last one. -/
inductive Integer where
  | int32 (n : Int32)
  | int64 (n : Int64)
  | uint32 (n : UInt32)
  | uint64 (n : UInt64)

namespace Integer

def toInt : Integer → Int
  | int32 n => n.toInt
  | int64 n => n.toInt
  | uint32 n => n.toNat
  | uint64 n => n.toNat

def value : Integer → OptionValue
  | int32 n => n
  | int64 n => n
  | uint32 n => n
  | uint64 n => n

theorem value_eq (n : Integer) : n.value = .ofInt n.toInt := by
  cases n <;> rfl

theorem minValue_le_toInt (n : Integer) : Int64.minValue.toInt ≤ n.toInt := by
  rw [Int64.toInt_minValue]
  cases n with
  | int32 n =>
      have h := n.le_toInt
      simp only [toInt]
      omega
  | int64 n => exact n.le_toInt
  | uint32 n => simp only [toInt]; omega
  | uint64 n => simp only [toInt]; omega

end Integer

theorem OptionValue.exists_ofInt_eq {n : Int} (hlow : Int64.minValue.toInt ≤ n) :
    ∃ k, ofInt n = .integer k ∧ k.toInt = min n Int64.maxValue.toInt := by
  refine ⟨_, rfl, ?_⟩
  by_cases hhigh : n ≤ Int64.maxValue.toInt
  · rw [if_pos hhigh, Int.min_eq_left hhigh]
    rw [Int64.toInt_minValue] at hlow
    rw [Int64.toInt_maxValue] at hhigh
    apply Int64.toInt_ofInt_of_le hlow
    omega
  · rw [if_neg hhigh, Int.min_eq_right (Int.le_of_not_le hhigh)]

namespace OptionKind

/-- The value for a content, as a setter's argument would be passed under the option's name. -/
def value : (kind : OptionKind) → kind.Content → OptionValue
  | filter, (q : Expr) => q
  | integer, (n : UInt64) => n
  | text, (s : String) => s
  | textList, (items : List String) => items
  | flag, (b : Bool) => b
  | strategy, (s : MatchingStrategy) => s

/-- The count that a content is. -/
def count? : (kind : OptionKind) → kind.Content → Option Int
  | integer, (n : UInt64) => some n.toNat
  | _, _ => none

variable {kind : OptionKind}

theorem eq_integer_of_count? {content : kind.Content} {n : Int}
    (h : kind.count? content = some n) :
    kind = .integer ∧ kind.value content = .ofInt n ∧ 0 ≤ n := by
  cases kind with
  | integer =>
      obtain rfl := Option.some.inj h
      exact ⟨rfl, rfl, Int.natCast_nonneg _⟩
  | _ => cases h

/-! ### Integers as values -/

theorem exists_takes_ofInt (hkind : kind = .integer) {n : Int} (hn : 0 ≤ n) :
    ∃ content, kind.Takes (.ofInt n) content ∧
      kind.count? content = some (min n Int64.maxValue.toInt) := by
  subst hkind
  have hlow : Int64.minValue.toInt ≤ n := by
    have hneg := Int64.toInt_minValue_lt_zero
    omega
  obtain ⟨k, hvalue, hk⟩ := OptionValue.exists_ofInt_eq hlow
  have hnonneg : 0 ≤ k := by
    rw [Int64.le_iff_toInt_le, hk, Int64.toInt_zero, Int64.toInt_maxValue]
    omega
  have hcount := toNat_toUInt64_of_nonneg hnonneg
  refine ⟨k.toUInt64, ?_, ?_⟩
  · rw [hvalue]
    exact .integer hcount
  · rw [← hk, ← hcount]
    rfl

theorem refuses_ofInt (target : String) (hkind : kind = .integer) {n : Int}
    (hlow : Int64.minValue.toInt ≤ n) (hn : n < 0) :
    kind.Refuses target (.ofInt n)
      (.invalidValue target "non-negative integer" "negative integer") := by
  subst hkind
  obtain ⟨k, hvalue, hk⟩ := OptionValue.exists_ofInt_eq hlow
  rw [hvalue]
  apply Refuses.negative
  rw [Int64.lt_iff_toInt_lt, hk, Int64.toInt_zero]
  omega

theorem takes_ofInt_toNat {count : UInt64} (h : count.toNat ≤ Int64.maxValue.toInt) :
    Takes .integer (.ofInt count.toNat) count := by
  obtain ⟨k, hvalue, hk⟩ := OptionValue.exists_ofInt_eq (Integer.uint64 count).minValue_le_toInt
  simp only [Integer.toInt] at hvalue hk
  rw [Int.min_eq_left h] at hk
  rw [hvalue]
  exact .integer hk.symm

/-- A content comes back from its value, unless it is a count that has no room in it. -/
theorem takes_value {content : kind.Content}
    (h : ∀ n ∈ kind.count? content, n ≤ Int64.maxValue.toInt) :
    kind.Takes (kind.value content) content := by
  cases kind with
  | filter => exact .filter content
  | integer => exact takes_ofInt_toNat (h _ rfl)
  | text => exact .text content
  | textList => exact .textList content
  | flag => exact .flag content
  | strategy => exact .strategy content

end OptionKind

namespace IndexSearch

/-- The count that the slot of an option holds. -/
def count? (search : IndexSearch) (option : SearchOption) : Option Int :=
  (search.slot option).bind option.kind.count?

/-- The searches differ at most in the slot of one option. -/
structure AgreeExcept (option : SearchOption) (first second : IndexSearch) : Prop where
  indexUid : first.indexUid = second.indexUid
  query : first.query = second.query
  slot : ∀ other, other ≠ option → first.slot other = second.slot other

section Put

variable (search : IndexSearch) (option : SearchOption) (content content' : option.Content)

theorem count?_put : (search.put option content).count? option = option.kind.count? content := by
  rw [count?, slot_put_self]
  rfl

theorem agreeExcept_put : (search.put option content).AgreeExcept option search where
  indexUid := indexUid_put search option content
  query := query_put search option content
  slot _ h := slot_put_of_ne search option content h

theorem agreeExcept_put_put :
    (search.put option content).AgreeExcept option (search.put option content') where
  indexUid := by rw [indexUid_put, indexUid_put]
  query := by rw [query_put, query_put]
  slot other h := by rw [slot_put_of_ne search option _ h, slot_put_of_ne search option _ h]

end Put

/-- **Setters and names agree up to the greatest signed integer.** An option that is assigned under
its name is what its setter would have made it, and the assignment is accepted. Only a count that is
too great differs: its setter keeps it, and under the name it becomes the greatest signed integer. So
an integer of whatever type is stored as it is or as the greatest one, and refused if it is
negative. -/
theorem named_and_typed_setters_agree (search : IndexSearch) (option : SearchOption) :
    (∀ content : option.Content,
      (∀ n ∈ option.kind.count? content, n ≤ Int64.maxValue.toInt) →
      (assign option.name (option.kind.value content)).apply search =
        (.ok (), search.put option content)) ∧
    (∀ (content : option.Content) (n : Int),
      option.kind.count? content = some n → Int64.maxValue.toInt < n →
      let typed := search.put option content
      ∃ named, (assign option.name (option.kind.value content)).apply search = (.ok (), named) ∧
        typed.count? option = some n ∧ named.count? option = some Int64.maxValue.toInt ∧
        named.AgreeExcept option typed) ∧
    (option.kind = .integer → ∀ n : Integer,
      let outcome := (assign option.name n.value).apply search
      (0 ≤ n.toInt → outcome.1 = .ok () ∧
        outcome.2.count? option = some (min n.toInt Int64.maxValue.toInt) ∧
        outcome.2.AgreeExcept option search) ∧
      (n.toInt < 0 → outcome =
        (.error (.invalidValue option.name "non-negative integer" "negative integer"),
          search))) := by
  refine ⟨?_, ?_, ?_⟩
  · intro content hcount
    exact apply_assign_of_takes (OptionKind.takes_value hcount) search
  · intro content n hcount hn typed
    obtain ⟨hkind, hvalue, hnonneg⟩ := OptionKind.eq_integer_of_count? hcount
    obtain ⟨greatest, htakes, hgreatest⟩ := OptionKind.exists_takes_ofInt hkind hnonneg
    rw [Int.min_eq_right (Int.le_of_lt hn)] at hgreatest
    refine ⟨search.put option greatest, ?_, ?_, ?_, ?_⟩
    · rw [hvalue]
      exact apply_assign_of_takes htakes search
    · exact (count?_put search option content).trans hcount
    · exact (count?_put search option greatest).trans hgreatest
    · exact agreeExcept_put_put search option greatest content
  · intro hkind n outcome
    constructor
    · intro hn
      obtain ⟨content, htakes, hcount⟩ := OptionKind.exists_takes_ofInt hkind hn
      have houtcome : outcome = (.ok (), search.put option content) := by
        rw [← apply_assign_of_takes htakes search, ← n.value_eq]
      rw [houtcome]
      exact ⟨rfl, (count?_put search option content).trans hcount,
        agreeExcept_put search option content⟩
    · intro hn
      have hrefuses := OptionKind.refuses_ofInt option.name hkind n.minValue_le_toInt hn
      rw [← n.value_eq] at hrefuses
      exact apply_assign_of_refuses hrefuses search

theorem named_and_typed_setters_agree_unsigned_count :
    let search := (new "movies" "batman").withPage 3
    let count : UInt64 := 9223372036854775808
    (assign "facets" (.textList ["genre"])).apply search = (.ok (), search.withFacets ["genre"]) ∧
    (∃ named, (assign "limit" count).apply search = (.ok (), named) ∧
      (search.withLimit count).count? .limit = some 9223372036854775808 ∧
      named.count? .limit = some 9223372036854775807 ∧
      named.AgreeExcept .limit (search.withLimit count)) ∧
    (assign "offset" (Integer.int32 (-1)).value).apply search =
      (.error (.invalidValue "offset" "non-negative integer" "negative integer"), search) := by
  intro search count
  refine ⟨?_, ?_, ?_⟩
  · exact (named_and_typed_setters_agree search .facets).1 ["genre"] fun _ h => nomatch h
  · exact (named_and_typed_setters_agree search .limit).2.1 count 9223372036854775808 (by decide)
      (by decide)
  · exact ((named_and_typed_setters_agree search .offset).2.2 rfl (.int32 (-1))).2 (by decide)

end IndexSearch

end SearchFilter
