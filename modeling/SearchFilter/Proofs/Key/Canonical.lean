import SearchFilter.Key
import Mathlib

/-!
# Canonical keys

A key is cut at its rightmost separator, and the path before the cut is taken apart from the left. A
run of three underscores or more can be read in several ways, and the two ends settle it differently.
What makes reading a key back possible all the same is that no suffix begins with an underscore, and
that a path is read as the path with dots in it, in which no separator is left. So whatever names a
field and an operator names them in a canonical key as well.
-/

namespace SearchFilter.Key

def HasSeparator (text : List Char) : Prop :=
  separator.toList <:+: text

instance (text : List Char) : Decidable (HasSeparator text) :=
  inferInstanceAs (Decidable (_ <:+: _))

/-- The text with a dot for every separator. Separators are found from the left and do not
overlap. -/
def dotted : List Char → List Char
  | [] => []
  | '_' :: '_' :: rest => '.' :: dotted rest
  | c :: rest => c :: dotted rest

theorem not_hasSeparator_nil : ¬HasSeparator [] := by
  decide

theorem hasSeparator_cons_iff {c : Char} {rest : List Char} :
    HasSeparator (c :: rest) ↔ (c = '_' ∧ rest.head? = some '_') ∨ HasSeparator rest := by
  have hbegins : separator.toList <+: c :: rest ↔ c = '_' ∧ rest.head? = some '_' := by
    change ['_', '_'] <+: c :: rest ↔ _
    rw [List.cons_prefix_cons, List.singleton_prefix_iff_head?_eq_some, eq_comm]
  rw [HasSeparator, List.infix_cons_iff, hbegins, HasSeparator]

/-! ### The cut

Cutting goes from the right, so what follows the cut holds no separator, not even one that begins
with the last underscore of the separator that is cut at. -/

theorem cutLast_cons_of_some {c : Char} {rest path suffix : List Char}
    (h : cutLast rest = some (path, suffix)) : cutLast (c :: rest) = some (c :: path, suffix) := by
  rw [cutLast.eq_def]
  simp only [h]

theorem cutLast_cons_of_none {c : Char} {rest : List Char} (h : cutLast rest = none) :
    cutLast (c :: rest) =
      if c = '_' ∧ rest.head? = some '_' then some ([], rest.tail) else none := by
  rw [cutLast.eq_def]
  simp only [h]
  split
  · simp
  · rw [if_neg]
    rintro ⟨rfl, hhead⟩
    obtain ⟨suffix, rfl⟩ := List.head?_eq_some_iff.mp hhead
    simp_all

theorem cutLast_eq_none_iff {key : List Char} : cutLast key = none ↔ ¬HasSeparator key := by
  induction key with
  | nil => simp [cutLast, not_hasSeparator_nil]
  | cons c rest ih =>
      rw [hasSeparator_cons_iff, not_or, ← ih]
      cases hrest : cutLast rest with
      | some cut => simp [cutLast_cons_of_some hrest]
      | none => simp [cutLast_cons_of_none hrest]

theorem cutLast_append (path : List Char) {suffix : List Char}
    (hsuffix : ¬HasSeparator ('_' :: suffix)) :
    cutLast (path ++ '_' :: '_' :: suffix) = some (path, suffix) := by
  induction path with
  | nil => simp [cutLast_cons_of_none (cutLast_eq_none_iff.mpr hsuffix)]
  | cons c path ih => exact cutLast_cons_of_some ih

theorem cutLast_eq_some_iff {key path suffix : List Char} :
    cutLast key = some (path, suffix) ↔
      key = path ++ '_' :: '_' :: suffix ∧ ¬HasSeparator ('_' :: suffix) := by
  constructor
  · intro h
    induction key generalizing path with
    | nil => cases h
    | cons c rest ih =>
        cases hrest : cutLast rest with
        | some cut =>
            obtain ⟨path', suffix'⟩ := cut
            rw [cutLast_cons_of_some hrest, Option.some.injEq, Prod.mk.injEq] at h
            obtain ⟨rfl, rfl⟩ := h
            obtain ⟨hkey, hsuffix⟩ := ih hrest
            exact ⟨by rw [hkey, List.cons_append], hsuffix⟩
        | none =>
            rw [cutLast_cons_of_none hrest] at h
            split_ifs at h with hpair
            obtain ⟨rfl, hhead⟩ := hpair
            obtain ⟨tail, rfl⟩ := List.head?_eq_some_iff.mp hhead
            rw [List.tail_cons, Option.some.injEq, Prod.mk.injEq] at h
            obtain ⟨rfl, rfl⟩ := h
            exact ⟨rfl, cutLast_eq_none_iff.mp hrest⟩
  · rintro ⟨rfl, hsuffix⟩
    exact cutLast_append path hsuffix

theorem not_hasSeparator_suffix (op : Operator) : ¬HasSeparator ('_' :: op.suffix.toList) := by
  cases op <;> decide

/-! ### The path -/

theorem dotted_cons {c : Char} {rest : List Char} (h : ¬(c = '_' ∧ rest.head? = some '_')) :
    dotted (c :: rest) = c :: dotted rest := by
  rw [dotted]
  rintro rest' rfl rfl
  exact h ⟨rfl, rfl⟩

theorem head?_of_head?_dotted {path : List Char} (h : (dotted path).head? = some '_') :
    path.head? = some '_' := by
  fun_cases dotted path <;> simp_all [dotted]

theorem not_hasSeparator_dotted (path : List Char) : ¬HasSeparator (dotted path) := by
  fun_induction dotted path with
  | case1 => exact not_hasSeparator_nil
  | case2 rest ih => simp [hasSeparator_cons_iff, ih]
  | case3 c rest hpair ih =>
      rw [hasSeparator_cons_iff, not_or]
      refine ⟨?_, ih⟩
      rintro ⟨rfl, hhead⟩
      obtain ⟨rest', rfl⟩ := List.head?_eq_some_iff.mp (head?_of_head?_dotted hhead)
      exact hpair rest' rfl rfl

theorem dotted_eq_self_iff {path : List Char} : dotted path = path ↔ ¬HasSeparator path := by
  constructor
  · intro h
    rw [← h]
    exact not_hasSeparator_dotted path
  · intro h
    induction path with
    | nil => rfl
    | cons c rest ih =>
        rw [hasSeparator_cons_iff, not_or] at h
        rw [dotted_cons h.1, ih h.2]

theorem field_eq (path : List Char) : field path = String.ofList (dotted path) := by
  have hdotted : ['.'].intercalate (segments path) = dotted path := by
    fun_induction segments path with
    | case1 => rfl
    | case2 rest ih =>
        obtain ⟨first, others, hrest⟩ := List.exists_cons_of_ne_nil (segments_ne_nil rest)
        rw [dotted, ← ih, hrest, List.intercalate_cons_cons]
        rfl
    | case3 c rest hpair hrest ih => exact absurd hrest (segments_ne_nil rest)
    | case4 c rest hpair first others hrest ih =>
        have hhead : ['.'].intercalate ((c :: first) :: others) =
            c :: ['.'].intercalate (first :: others) := by
          cases others <;> simp [List.intercalate_cons_cons]
        rw [hhead, ← hrest, ih, dotted]
        exact hpair
  apply String.toList_inj.mp
  rw [field, String.toList_intercalate, List.map_map, String.toList_ofList, ← hdotted]
  simp [Function.comp_def]

/-- A segment ends at the first separator unless it ends in an underscore itself. -/
theorem dotted_append {segment : List Char} (rest : List Char) (hseparator : ¬HasSeparator segment)
    (hlast : segment.getLast? ≠ some '_') :
    dotted (segment ++ '_' :: '_' :: rest) = segment ++ '.' :: dotted rest := by
  induction segment with
  | nil => rfl
  | cons c segment ih =>
      rw [hasSeparator_cons_iff, not_or] at hseparator
      have hpair : ¬(c = '_' ∧ (segment ++ '_' :: '_' :: rest).head? = some '_') := by
        cases segment with
        | nil => simpa using hlast
        | cons d segment => exact hseparator.1
      have hlast' : segment.getLast? ≠ some '_' := by
        cases segment with
        | nil => simp
        | cons d segment => simpa using hlast
      rw [List.cons_append, dotted_cons hpair, ih hseparator.2 hlast', List.cons_append]

theorem dotted_intercalate {segments : List (List Char)} (hne : segments ≠ [])
    (hseparator : ∀ segment ∈ segments, ¬HasSeparator segment)
    (hlast : ∀ segment ∈ segments.dropLast, segment.getLast? ≠ some '_') :
    dotted (separator.toList.intercalate segments) = ['.'].intercalate segments := by
  induction segments with
  | nil => exact absurd rfl hne
  | cons segment rest ih =>
      have hsegment := hseparator segment List.mem_cons_self
      cases rest with
      | nil =>
          rw [List.intercalate_singleton, List.intercalate_singleton]
          exact dotted_eq_self_iff.mpr hsegment
      | cons next rest =>
          have htail := ih (List.cons_ne_nil next rest)
            (fun other hother => hseparator other (List.mem_cons_of_mem _ hother))
            (fun other hother => hlast other (List.mem_cons_of_mem _ hother))
          rw [List.intercalate_cons_cons, List.intercalate_cons_cons, ← htail]
          simpa [separator] using dotted_append (separator.toList.intercalate (next :: rest))
            hsegment (hlast segment List.mem_cons_self)

theorem split_join (field : String) (op : Operator) :
    split (join field op) = .ok (String.ofList (dotted field.toList), op) := by
  have hkey : (join field op).toList = field.toList ++ '_' :: '_' :: op.suffix.toList := by
    simp [join, separator]
  rw [split, hkey, cutLast_append field.toList (not_hasSeparator_suffix op)]
  simp only [String.ofList_toList, Operator.ofSuffix?_suffix, field_eq]

/-- Of five underscores the last two are the cut, the first two a dot, and the one between is kept. -/
example : split "a_____eq" = .ok ("a._", .eq) := by cbv

theorem not_hasSeparator_of_split {key field : String} {op : Operator}
    (h : split key = .ok (field, op)) : ¬HasSeparator field.toList := by
  rw [split] at h
  split at h
  next hcut =>
    obtain ⟨rfl, rfl⟩ := Prod.mk.inj (Except.ok.inj h)
    exact cutLast_eq_none_iff.mp hcut
  next path suffix hcut =>
    split at h
    next => cases h
    next op' hop =>
      obtain ⟨rfl, rfl⟩ := Prod.mk.inj (Except.ok.inj h)
      rw [field_eq, String.toList_ofList]
      exact not_hasSeparator_dotted path

theorem split_join_of_not_hasSeparator {field : String} (h : ¬HasSeparator field.toList)
    (op : Operator) : split (join field op) = .ok (field, op) := by
  rw [split_join, dotted_eq_self_iff.mpr h, String.ofList_toList]

theorem split_of_not_hasSeparator {key : String} (h : ¬HasSeparator key.toList) :
    split key = .ok (key, default) := by
  rw [split, cutLast_eq_none_iff.mpr h]

/-- The only fault of a key is that what follows its rightmost separator is the suffix of no
operator. -/
theorem split_eq_error_iff {key : String} {fault : Error} :
    split key = .error fault ↔
      ∃ path suffix : String, key = path ++ separator ++ suffix ∧
        ¬HasSeparator ('_' :: suffix.toList) ∧ Operator.ofSuffix? suffix = none ∧
        fault = .invalidOperator key suffix := by
  constructor
  · intro h
    cases hcut : cutLast key.toList with
    | none => simp [split, hcut] at h
    | some cut =>
        obtain ⟨path, suffix⟩ := cut
        obtain ⟨hkey, hsuffix⟩ := cutLast_eq_some_iff.mp hcut
        cases hop : Operator.ofSuffix? (String.ofList suffix) with
        | some op => simp [split, hcut, hop] at h
        | none =>
            simp only [split, hcut, hop, Except.error.injEq] at h
            refine ⟨String.ofList path, String.ofList suffix, ?_, ?_, hop, h.symm⟩
            · apply String.toList_inj.mp
              simp [hkey, separator]
            · rwa [String.toList_ofList]
  · rintro ⟨path, suffix, hkey, hsuffix, hop, rfl⟩
    have hcut : cutLast key.toList = some (path.toList, suffix.toList) := by
      refine cutLast_eq_some_iff.mpr ⟨?_, hsuffix⟩
      simp [hkey, separator]
    simp [split, hcut, hop]

/-- **Reading back a key.** Segments come back joined with dots, if no segment can be mistaken for
more than one and only the last one ends in an underscore. Any text at all comes back with dots for
its separators. What a key names has no separator in it, so its own key names it again. -/
theorem split_names_canonical_field :
    (∀ (segments : List String) (op : Operator), segments ≠ [] →
      (∀ segment ∈ segments, ¬HasSeparator segment.toList) →
      (∀ segment ∈ segments.dropLast, segment.toList.getLast? ≠ some '_') →
      split (join (separator.intercalate segments) op) = .ok (".".intercalate segments, op)) ∧
    (∀ (field : String) (op : Operator),
      split (join field op) = .ok (String.ofList (dotted field.toList), op) ∧
      (String.ofList (dotted field.toList) = field ↔ ¬HasSeparator field.toList)) ∧
    (∀ (key field : String) (op : Operator), split key = .ok (field, op) →
      ¬HasSeparator field.toList ∧ split (join field op) = .ok (field, op)) ∧
    ∀ key : String, ¬HasSeparator key.toList → split key = split (join key .eq) := by
  refine ⟨?_, ?_, ?_, ?_⟩
  · intro segments op hne hseparator hlast
    have hne' : segments.map String.toList ≠ [] := by simpa using hne
    have hdotted := dotted_intercalate hne' (by simpa using hseparator)
      (by simpa [← List.map_dropLast] using hlast)
    rw [split_join, String.toList_intercalate, hdotted]
    congr 2
    apply String.toList_inj.mp
    rw [String.toList_ofList, String.toList_intercalate]
    rfl
  · intro field op
    refine ⟨split_join field op, ?_⟩
    rw [← dotted_eq_self_iff, ← String.toList_inj, String.toList_ofList]
  · intro key field op hkey
    have hfield := not_hasSeparator_of_split hkey
    exact ⟨hfield, split_join_of_not_hasSeparator hfield op⟩
  · intro key hkey
    rw [split_of_not_hasSeparator hkey, split_join_of_not_hasSeparator hkey]
    rfl

theorem split_names_canonical_field_underscores :
    let segments := ["author", "", "_name_"]
    let key := "a_____b___not exists"
    (segments ≠ [] ∧ (∀ segment ∈ segments, ¬HasSeparator segment.toList) ∧
      (∀ segment ∈ segments.dropLast, segment.toList.getLast? ≠ some '_') ∧
      split key = .ok ("a.._b_", .absent)) ∧
    split "author_____name___not_exists" = .ok ("author.._name_", .absent) ∧
      (¬HasSeparator "a.._b_".toList ∧ split "a.._b___not_exists" = .ok ("a.._b_", .absent)) ∧
      ¬HasSeparator "_a_".toList ∧ split "_a_" = split "_a___eq" := by
  intro segments key
  have hne : segments ≠ [] := List.cons_ne_nil _ _
  have hseparator : ∀ segment ∈ segments, ¬HasSeparator segment.toList := by decide
  have hlast : ∀ segment ∈ segments.dropLast, segment.toList.getLast? ≠ some '_' := by decide
  have hkey : split key = .ok ("a.._b_", .absent) := by cbv
  have hplain : ¬HasSeparator "_a_".toList := by decide
  exact ⟨⟨hne, hseparator, hlast, hkey⟩,
    split_names_canonical_field.1 segments .absent hne hseparator hlast,
    split_names_canonical_field.2.2.1 key _ _ hkey, hplain,
    split_names_canonical_field.2.2.2 "_a_" hplain⟩

end SearchFilter.Key
