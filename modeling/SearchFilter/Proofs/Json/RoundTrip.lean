import SearchFilter.Proofs.Json.Scanned

/-!
# Writing and reading values

A value whose numbers are integers of 64 bits is read from its text again, if its objects are in
order and it does not nest deeper than is read. The order of objects is no restriction for values
that have been read themselves: whatever a document holds, the value read from it has its objects in
order.
-/

namespace SearchFilter.Json

section Lists

variable {α β γ : Type} {f : α → Option β} {as : List α} {bs : List β}

theorem mem_of_mapM_eq_some (h : as.mapM f = some bs) {b : β} (hb : b ∈ bs) :
    ∃ a ∈ as, f a = some b := by
  induction as generalizing bs with
  | nil =>
      obtain rfl := Option.some.inj h
      exact absurd hb List.not_mem_nil
  | cons a rest ih =>
      rw [List.mapM_cons] at h
      obtain ⟨first, hfirst, h⟩ := Option.bind_eq_some_iff.mp h
      obtain ⟨others, hothers, h⟩ := Option.bind_eq_some_iff.mp h
      obtain rfl := Option.some.inj h
      rcases List.mem_cons.mp hb with rfl | hb
      · exact ⟨a, List.mem_cons_self, hfirst⟩
      · obtain ⟨a', ha', hfa'⟩ := ih hothers hb
        exact ⟨a', List.mem_cons_of_mem a ha', hfa'⟩

theorem mapM_map_eq_some {g : γ → α} {k : γ → β} {cs : List γ}
    (h : ∀ c ∈ cs, f (g c) = some (k c)) : (cs.map g).mapM f = some (cs.map k) := by
  induction cs with
  | nil => rfl
  | cons c rest ih =>
      obtain ⟨hc, hrest⟩ := List.forall_mem_cons.mp h
      rw [List.map_cons, List.mapM_cons, hc, ih hrest]
      rfl

end Lists

namespace Written

theorem itemsToJson?_eq_mapM (depth : Nat) (items : List Written) :
    itemsToJson? depth items = items.mapM (toJson? depth) := by
  induction items with
  | nil => rfl
  | cons item rest ih => rw [itemsToJson?, ih, List.mapM_cons]

/-- What a member of an object is worth. -/
def memberToJson? (depth : Nat) (member : List Piece × Written) : Option (String × Json) := do
  let key ← decodeString? member.1
  let value ← member.2.toJson? depth
  return (key, value)

theorem membersToJson?_eq_mapM (depth : Nat) (members : List (List Piece × Written)) :
    membersToJson? depth members = members.mapM (memberToJson? depth) := by
  induction members with
  | nil => rfl
  | cons member rest ih =>
      rw [membersToJson?, ih, List.mapM_cons, memberToJson?]
      simp [Option.bind_assoc]

end Written

/-! ### What is written is read -/

theorem toJson?_toWritten {value : Json} {depth : Nat} (hwhole : value.Whole)
    (hcanonical : value.Canonical) (hlevels : value.levels ≤ depth) :
    value.toWritten.toJson? depth = some value := by
  induction value using Json.induction generalizing depth with
  | null => rw [toWritten, Written.toJson?]
  | bool b => rw [toWritten, Written.toJson?]
  | int n =>
      obtain ⟨hlow, hhigh⟩ := hwhole.int n (.self _)
      rw [toWritten, Written.toJson?, Numeral.toJson?_ofInt hlow hhigh]
  | double x => exact absurd (.self _) (hwhole.double x)
  | string s =>
      rw [toWritten, Written.toJson?, decodeString?_pieces]
      rfl
  | array items ih =>
      obtain ⟨depth, rfl⟩ := Nat.exists_eq_add_one.mpr ((Nat.succ_pos _).trans_le hlevels)
      have hbelow := itemLevels_le_iff.mp (Nat.le_of_succ_le_succ hlevels)
      have hitems : ∀ item ∈ items, item.toWritten.toJson? depth = some item := fun item hitem =>
        ih item hitem (Whole.array_iff.mp hwhole item hitem)
          (Canonical.array_iff.mp hcanonical item hitem) (hbelow item hitem)
      rw [toWritten, Written.toJson?, Written.itemsToJson?_eq_mapM, itemsToWritten_eq_map,
        mapM_map_eq_some (k := id) hitems, List.map_id]
      rfl
  | object members ih =>
      obtain ⟨depth, rfl⟩ := Nat.exists_eq_add_one.mpr ((Nat.succ_pos _).trans_le hlevels)
      have hbelow := memberLevels_le_iff.mp (Nat.le_of_succ_le_succ hlevels)
      obtain ⟨hsorted, hcanonical⟩ := Canonical.object_iff.mp hcanonical
      have hextend : Members.extend [] members = members := Members.extend_of_sorted hsorted
      have hmembers : ∀ member ∈ members, Written.memberToJson? depth
          (pieces member.1, member.2.toWritten) = some member := by
        intro member hmember
        have hvalue := ih member hmember (Whole.object_iff.mp hwhole member hmember)
          (hcanonical member hmember) (hbelow member hmember)
        simp [Written.memberToJson?, decodeString?_pieces, hvalue]
      rw [toWritten, Written.toJson?, Written.membersToJson?_eq_mapM, membersToWritten_eq_map,
        mapM_map_eq_some (k := id) hmembers, List.map_id, Option.map_eq_map, Option.map_some,
        ofMembers, hextend]

/-- **A value is read from its text.** -/
theorem read?_text {value : Json} {depth : Nat} (hwhole : value.Whole)
    (hcanonical : value.Canonical) (hlevels : value.levels ≤ depth) :
    read? depth value.text = some value := by
  rw [read?, Written.read?_text hwhole]
  exact toJson?_toWritten hwhole hcanonical hlevels

/-! ### What is read is in order -/

theorem canonical_ofMembers {members : Members} (h : ∀ member ∈ members, member.2.Canonical) :
    (ofMembers members).Canonical := by
  refine Canonical.object_iff.mpr ⟨Members.sorted_extend List.Pairwise.nil members, ?_⟩
  intro member hmember
  rcases Members.mem_extend hmember with hnil | hmember
  · exact absurd hnil List.not_mem_nil
  · exact h member hmember

theorem Numeral.int_or_double_of_toJson? {n : Numeral} {value : Json}
    (h : n.toJson? = some value) : (∃ m, value = .int m) ∨ ∃ x, value = .double x := by
  have hdouble {x? : Option Binary64} (hx : double <$> x? = some value) :
      ∃ x, value = .double x := by
    obtain ⟨x, -, rfl⟩ := Option.map_eq_some_iff.mp hx
    exact ⟨x, rfl⟩
  rw [toJson?] at h
  split at h
  · split_ifs at h
    · exact .inl ⟨_, (Option.some.inj h).symm⟩
    · exact .inr (hdouble h)
    · exact .inl ⟨_, (Option.some.inj h).symm⟩
    · exact .inr (hdouble h)
  · exact .inr (hdouble h)

/-- Nothing but null is read as null. -/
theorem eq_null_of_toJson? {written : Written} {depth : Nat}
    (h : written.toJson? depth = some .null) : written = .null := by
  cases written with
  | null => rfl
  | bool b => cases h
  | number n =>
      rw [Written.toJson?] at h
      rcases Numeral.int_or_double_of_toJson? h with ⟨m, hm⟩ | ⟨x, hx⟩
      · cases hm
      · cases hx
  | string pieces =>
      obtain ⟨s, -, hs⟩ := Option.map_eq_some_iff.mp h
      cases hs
  | array items =>
      cases depth with
      | zero => cases h
      | succ depth =>
          obtain ⟨values, -, hvalues⟩ := Option.map_eq_some_iff.mp h
          cases hvalues
  | object members =>
      cases depth with
      | zero => cases h
      | succ depth =>
          obtain ⟨values, -, hvalues⟩ := Option.map_eq_some_iff.mp h
          cases hvalues

theorem canonical_of_toJson? {written : Written} {depth : Nat} {value : Json}
    (h : written.toJson? depth = some value) : value.Canonical := by
  induction written using Written.induction generalizing depth value with
  | null =>
      rw [Written.toJson?] at h
      obtain rfl := Option.some.inj h
      exact .of_levels_eq_zero rfl
  | bool b =>
      rw [Written.toJson?] at h
      obtain rfl := Option.some.inj h
      exact .of_levels_eq_zero rfl
  | number n =>
      rw [Written.toJson?] at h
      rcases Numeral.int_or_double_of_toJson? h with ⟨m, rfl⟩ | ⟨x, rfl⟩
      · exact .of_levels_eq_zero rfl
      · exact .of_levels_eq_zero rfl
  | string pieces =>
      rw [Written.toJson?] at h
      obtain ⟨s, -, rfl⟩ := Option.map_eq_some_iff.mp h
      exact .of_levels_eq_zero rfl
  | array items ih =>
      cases depth with
      | zero =>
          rw [Written.toJson?] at h
          cases h
      | succ depth =>
          rw [Written.toJson?, Written.itemsToJson?_eq_mapM] at h
          obtain ⟨values, hvalues, rfl⟩ := Option.map_eq_some_iff.mp h
          refine Canonical.array_iff.mpr fun item hitem => ?_
          obtain ⟨writtenItem, hmem, hread⟩ := mem_of_mapM_eq_some hvalues hitem
          exact ih writtenItem hmem hread
  | object members ih =>
      cases depth with
      | zero =>
          rw [Written.toJson?] at h
          cases h
      | succ depth =>
          rw [Written.toJson?, Written.membersToJson?_eq_mapM] at h
          obtain ⟨values, hvalues, rfl⟩ := Option.map_eq_some_iff.mp h
          refine canonical_ofMembers fun member hmember => ?_
          obtain ⟨writtenMember, hmem, hread⟩ := mem_of_mapM_eq_some hvalues hmember
          obtain ⟨key, -, hread⟩ := Option.bind_eq_some_iff.mp hread
          obtain ⟨value, hvalue, hmade⟩ := Option.bind_eq_some_iff.mp hread
          obtain rfl := Option.some.inj hmade
          exact ih writtenMember hmem hvalue

end SearchFilter.Json
