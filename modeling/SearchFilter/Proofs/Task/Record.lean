import SearchFilter.Proofs.Json.RoundTrip
import SearchFilter.Task.Basic
import Mathlib

/-!
# Task records

A record is written with its parts in order or, as a value, with its members in the order of their
keys, and it is read from either text again. What makes this work is that the fields of a record are
looked up by name, so neither their order nor what else a document has matters. The one thing that a
text cannot tell from its absence is an error that is null.
-/

namespace SearchFilter

namespace Json

/-- The members of an object, each with its value as it is written. -/
def fieldsOf (members : Members) : List (String × Written) :=
  members.map fun (key, value) => (key, value.toWritten)

theorem lookup_fieldsOf (members : Members) (key : String) :
    (fieldsOf members).lookup key = (Members.get? members key).map toWritten := by
  induction members with
  | nil => rfl
  | cons member rest ih =>
      rw [fieldsOf, List.map_cons, List.lookup_cons, Members.get?, ← fieldsOf, ih]
      by_cases hkey : key = member.1
      · simp [hkey]
      · rw [beq_eq_false_iff_ne.mpr hkey, if_neg hkey]

/-- An object has the fields of a record if it has no others and none twice. -/
theorem fields?_toWritten {members : Members} {names : List String}
    (hnames : ∀ key ∈ Members.keys members, key ∈ names) (hnodup : (Members.keys members).Nodup) :
    (toWritten (.object members)).fields? names = some (fieldsOf members) := by
  have hkeys : (fieldsOf members).map (·.1) = Members.keys members := by
    simp [fieldsOf, Members.keys]
  rw [toWritten, Written.fields?]
  refine Option.bind_eq_some_iff.mpr ⟨fieldsOf members, ?_, ?_⟩
  · rw [membersToWritten_eq_map]
    exact mapM_map_eq_some fun member _ => by simp [decodeString?_pieces]
  · dsimp only
    rw [List.filter_eq_self.mpr, hkeys, if_pos hnodup]
    intro field hfield
    have hkey : field.1 ∈ Members.keys members := by
      rw [← hkeys]
      exact List.mem_map_of_mem hfield
    exact List.contains_iff_mem.mpr (hnames field.1 hkey)

end Json

namespace TaskInfo

open Json (Members)

/-! ### Reading -/

/-- The fields of a record that a document has. -/
def documentFields? (document : String) : Option (List (String × Json.Written)) := do
  (← Json.Written.read? document).fields? fieldNames

def ofFields? (fields : List (String × Json.Written)) : Option TaskInfo := do
  return {
    uid := ← (← fields.lookup "uid").toUInt64?
    status := ← TaskStatus.ofWritten? (← fields.lookup "status")
    kind := ← optional? Json.Written.toString? (fields.lookup "type")
    error := ← optional? (Json.Written.toJson? maxErrorDepth) (fields.lookup "error") }

theorem read?_eq (document : String) :
    read? document = (documentFields? document).bind ofFields? := by
  exact (Option.bind_assoc _ _ _).symm

theorem optional?_some_of_ne_null {α : Type} (read? : Json.Written → Option α)
    {value : Json.Written} (h : value ≠ .null) :
    optional? read? (some value) = some <$> read? value := by
  cases value <;> first | rfl | exact absurd rfl h

/-! ### Writing -/

theorem keys_members (task : TaskInfo) :
    Members.keys task.members = ["uid", "status"] ++ (task.kind.toList.map fun _ => "type") ++
      task.error.toList.map fun _ => "error" := by
  simp [members, Members.keys, Function.comp_def]

/-- A record is written with some of its fields, in order. -/
theorem keys_members_sublist (task : TaskInfo) :
    (Members.keys task.members).Sublist fieldNames := by
  have hkind : (task.kind.toList.map fun _ => "type").Sublist ["type"] := by
    cases task.kind <;> simp
  have herror : (task.error.toList.map fun _ => "error").Sublist ["error"] := by
    cases task.error <;> simp
  rw [keys_members]
  exact ((List.Sublist.refl ["uid", "status"]).append hkind).append herror

theorem nodup_keys_members (task : TaskInfo) : (Members.keys task.members).Nodup :=
  task.keys_members_sublist.nodup (by decide)

theorem get?_members_uid (task : TaskInfo) :
    Members.get? task.members "uid" = some (.int task.uid.toNat) := rfl

theorem get?_members_status (task : TaskInfo) :
    Members.get? task.members "status" = some (.string task.status.name) := rfl

theorem get?_members_type (task : TaskInfo) :
    Members.get? task.members "type" = task.kind.map .string := by
  cases hkind : task.kind <;> cases herror : task.error <;>
    simp [members, Members.get?, hkind, herror]

theorem get?_members_error (task : TaskInfo) :
    Members.get? task.members "error" = task.error := by
  cases hkind : task.kind <;> cases herror : task.error <;>
    simp [members, Members.get?, hkind, herror]

/-! ### The round trip -/

/-- An error that a text can hold as a whole. -/
structure Bounded (error : Json) : Prop where
  whole : error.Whole
  levels : error.levels < 100

variable {task : TaskInfo} {members : Members}

theorem whole_of_perm (hperm : members.Perm task.members)
    (hwhole : ∀ error ∈ task.error, error.Whole) : Json.Whole (.object members) := by
  refine Json.Whole.object_iff.mpr fun member hmember => ?_
  have hmem : member ∈ task.members := hperm.mem_iff.mp hmember
  simp only [TaskInfo.members, List.mem_append, List.mem_cons, List.not_mem_nil, or_false,
    List.mem_map, Option.mem_toList] at hmem
  rcases hmem with ((rfl | rfl) | ⟨kind, -, rfl⟩) | ⟨error, herror, rfl⟩
  · exact .ofInt (by omega) (by exact_mod_cast task.uid.toNat_lt)
  · exact .string _
  · exact .string _
  · exact hwhole error herror

/-- What a document has for a record, if the record's members stand in it in any order. -/
theorem documentFields?_membersText (hperm : members.Perm task.members)
    (hwhole : ∀ error ∈ task.error, error.Whole) :
    documentFields? (Json.membersText members) = some (Json.fieldsOf members) := by
  have hkeys := Members.perm_keys hperm
  have hnames : ∀ key ∈ Members.keys members, key ∈ fieldNames := fun key hkey =>
    task.keys_members_sublist.subset (hkeys.mem_iff.mp hkey)
  have hread := Json.Written.read?_text (whole_of_perm hperm hwhole)
  have htext : Json.text (.object members) = Json.membersText members := rfl
  rw [htext] at hread
  rw [documentFields?, hread]
  exact Json.fields?_toWritten hnames (hkeys.nodup_iff.mpr task.nodup_keys_members)

/-- What is read of an error. One that is null cannot be told from none. -/
def readError : Option Json → Option Json
  | some .null => none
  | error => error

theorem toWritten_ne_null {error : Json} (hnull : error ≠ .null) (hwhole : error.Whole) :
    error.toWritten ≠ .null := by
  cases error with
  | null => exact absurd rfl hnull
  | double x => exact absurd (.self _) (hwhole.double x)
  | bool b | int n | string s | array items | object members =>
      intro hwritten
      cases hwritten

theorem optional?_error {error : Option Json} (hcanonical : ∀ value ∈ error, value.Canonical)
    (hbounded : ∀ value ∈ error, Bounded value) :
    optional? (Json.Written.toJson? maxErrorDepth) (error.map Json.toWritten) =
      some (readError error) := by
  cases error with
  | none => rfl
  | some value =>
      have hvalue : value = .null ∨ value ≠ .null := Classical.em _
      rcases hvalue with rfl | hnull
      · rfl
      · obtain ⟨hwhole, hlevels⟩ := hbounded value rfl
        have hdepth : value.levels ≤ maxErrorDepth := by
          rw [maxErrorDepth]
          omega
        have hread := Json.toJson?_toWritten hwhole (hcanonical value rfl) hdepth
        have herror : readError (some value) = some value := by
          cases value <;> first | rfl | exact absurd rfl hnull
        rw [Option.map_some, optional?_some_of_ne_null _ (toWritten_ne_null hnull hwhole), hread,
          herror]
        rfl

theorem optional?_kind (kind : Option String) :
    optional? Json.Written.toString? ((kind.map Json.string).map Json.toWritten) = some kind := by
  cases kind with
  | none => rfl
  | some s =>
      have hread : Json.Written.toString? (.string (Json.pieces s)) = some s :=
        Json.decodeString?_pieces s
      rw [Option.map_some, Option.map_some, Json.toWritten,
        optional?_some_of_ne_null _ (by simp), hread]
      rfl

/-- A record is read from its members, in whatever order they stand. -/
theorem read?_membersText (hperm : members.Perm task.members)
    (hcanonical : ∀ error ∈ task.error, error.Canonical)
    (hbounded : ∀ error ∈ task.error, Bounded error) :
    read? (Json.membersText members) = some { task with error := readError task.error } := by
  have hwhole : ∀ error ∈ task.error, error.Whole := fun error h => (hbounded error h).whole
  have hfields := documentFields?_membersText hperm hwhole
  have hlookup (key : String) : (Json.fieldsOf members).lookup key =
      (Members.get? task.members key).map Json.toWritten := by
    have hnodup := (Members.perm_keys hperm).nodup_iff.mpr task.nodup_keys_members
    rw [Json.lookup_fieldsOf, Members.get?_eq_of_perm hperm hnodup]
  have huid : Json.Written.toUInt64? (Json.toWritten (.int task.uid.toNat)) = some task.uid :=
    Json.Numeral.toUInt64?_ofInt task.uid
  have hstatus : TaskStatus.ofWritten? (Json.toWritten (.string task.status.name)) =
      some task.status := by
    rw [Json.toWritten, TaskStatus.ofWritten?, Json.decodeString?_pieces]
    exact TaskStatus.ofName?_name task.status
  rw [read?_eq, hfields, Option.bind_some, ofFields?]
  simp only [hlookup, get?_members_uid, get?_members_status, get?_members_type, get?_members_error,
    Option.map_some, Option.bind_eq_bind, Option.bind_some, huid, hstatus, optional?_kind,
    optional?_error hcanonical hbounded]
  rfl

/-! ### Documents -/

/-- The document has the field of a record, whatever the field holds. -/
def HasField (document : String) (name : String) : Prop :=
  ∃ fields, documentFields? document = some fields ∧ (fields.lookup name).isSome = true

/-- The document is read as the record, and it leaves out what the record does not know. -/
structure Represents (document : String) (task : TaskInfo) : Prop where
  read : read? document = some task
  kind : HasField document "type" ↔ task.kind.isSome = true
  error : HasField document "error" ↔ task.error.isSome = true

theorem hasField_membersText (hperm : members.Perm task.members)
    (hwhole : ∀ error ∈ task.error, error.Whole) (name : String) :
    HasField (Json.membersText members) name ↔ (Members.get? task.members name).isSome = true := by
  have hfields := documentFields?_membersText hperm hwhole
  have hnodup := (Members.perm_keys hperm).nodup_iff.mpr task.nodup_keys_members
  have hlookup : ((Json.fieldsOf members).lookup name).isSome =
      (Members.get? task.members name).isSome := by
    rw [Json.lookup_fieldsOf, Members.get?_eq_of_perm hperm hnodup, Option.isSome_map]
  constructor
  · rintro ⟨fields, hdocument, hfield⟩
    obtain rfl := Option.some.inj (hfields.symm.trans hdocument)
    rwa [hlookup] at hfield
  · intro hmember
    exact ⟨Json.fieldsOf members, hfields, hlookup.trans hmember⟩

theorem represents_membersText (hperm : members.Perm task.members)
    (hnull : task.error ≠ some .null) (hcanonical : ∀ error ∈ task.error, error.Canonical)
    (hbounded : ∀ error ∈ task.error, Bounded error) :
    Represents (Json.membersText members) task := by
  have hwhole : ∀ error ∈ task.error, error.Whole := fun error h => (hbounded error h).whole
  have herror : readError task.error = task.error := by
    cases herror : task.error with
    | none => rfl
    | some error =>
        rw [herror] at hnull
        cases error <;> first | rfl | exact absurd rfl hnull
  constructor
  · rw [read?_membersText hperm hcanonical hbounded, herror]
  · rw [hasField_membersText hperm hwhole, get?_members_type, Option.isSome_map]
  · rw [hasField_membersText hperm hwhole, get?_members_error]

theorem represents_texts (hnull : task.error ≠ some .null)
    (hcanonical : ∀ error ∈ task.error, error.Canonical)
    (hbounded : ∀ error ∈ task.error, Bounded error) :
    Represents task.text task ∧ Represents task.toJson.text task := by
  have hsorted : (Members.extend [] task.members).Perm task.members :=
    Members.extend_perm task.nodup_keys_members
  exact ⟨represents_membersText (.refl _) hnull hcanonical hbounded,
    represents_membersText hsorted hnull hcanonical hbounded⟩

theorem exists_of_optional?_eq_some {α : Type} {read? : Json.Written → Option α}
    {slot : Option Json.Written} {result : α} (h : optional? read? slot = some (some result)) :
    ∃ value, slot = some value ∧ value ≠ .null ∧ read? value = some result := by
  rcases slot with _ | value
  · cases h
  · by_cases hnull : value = .null
    · subst hnull
      cases h
    · rw [optional?_some_of_ne_null _ hnull] at h
      obtain ⟨result', hread, hresult⟩ := Option.map_eq_some_iff.mp h
      exact ⟨value, rfl, hnull, hresult ▸ hread⟩

theorem isSome_of_optional? {α : Type} {read? : Json.Written → Option α}
    {slot : Option Json.Written} {result : Option α} (h : optional? read? slot = some result)
    (hresult : result.isSome = true) : slot.isSome = true := by
  obtain ⟨found, rfl⟩ := Option.isSome_iff_exists.mp hresult
  obtain ⟨value, rfl, -, -⟩ := exists_of_optional?_eq_some h
  rfl

/-- What a document has, if it is read as a record. -/
structure FieldsOf (fields : List (String × Json.Written)) (task : TaskInfo) : Prop where
  uid : (fields.lookup "uid").isSome = true
  status : (fields.lookup "status").isSome = true
  kind : optional? Json.Written.toString? (fields.lookup "type") = some task.kind
  error : optional? (Json.Written.toJson? maxErrorDepth) (fields.lookup "error") = some task.error

theorem exists_fields_of_read? {document : String} (h : read? document = some task) :
    ∃ fields, documentFields? document = some fields ∧ FieldsOf fields task := by
  rw [read?_eq] at h
  obtain ⟨fields, hfields, h⟩ := Option.bind_eq_some_iff.mp h
  obtain ⟨uid, huid, h⟩ := Option.bind_eq_some_iff.mp h
  obtain ⟨n, -, h⟩ := Option.bind_eq_some_iff.mp h
  obtain ⟨status, hstatus, h⟩ := Option.bind_eq_some_iff.mp h
  obtain ⟨s, -, h⟩ := Option.bind_eq_some_iff.mp h
  obtain ⟨kind, hkind, h⟩ := Option.bind_eq_some_iff.mp h
  obtain ⟨error, herror, h⟩ := Option.bind_eq_some_iff.mp h
  obtain rfl := Option.some.inj h
  exact ⟨fields, hfields, by rw [huid]; rfl, by rw [hstatus]; rfl, hkind, herror⟩

theorem FieldsOf.canonical {fields : List (String × Json.Written)} (h : FieldsOf fields task) :
    ∀ error ∈ task.error, error.Canonical := by
  intro error herror
  have hread := h.error
  rw [Option.mem_def.mp herror] at hread
  obtain ⟨written, -, -, hwritten⟩ := exists_of_optional?_eq_some hread
  exact Json.canonical_of_toJson? hwritten

theorem FieldsOf.error_ne_null {fields : List (String × Json.Written)} (h : FieldsOf fields task) :
    task.error ≠ some .null := by
  intro hnull
  have hread := h.error
  rw [hnull] at hread
  obtain ⟨written, -, hwritten, htoJson⟩ := exists_of_optional?_eq_some hread
  exact hwritten (Json.eq_null_of_toJson? htoJson)

/-- The text of a record has no field that is missing in the document it was read from. -/
theorem FieldsOf.hasField {fields : List (String × Json.Written)} (h : FieldsOf fields task)
    {name : String} (hname : (Members.get? task.members name).isSome = true) :
    (fields.lookup name).isSome = true := by
  have hkey : name ∈ Members.keys task.members := by
    by_contra hmissing
    rw [Members.get?_eq_none_iff.mpr hmissing] at hname
    cases hname
  have hfield := task.keys_members_sublist.subset hkey
  simp only [fieldNames, List.mem_cons, List.not_mem_nil, or_false] at hfield
  rcases hfield with rfl | rfl | rfl | rfl
  · exact h.uid
  · exact h.status
  · rw [get?_members_type, Option.isSome_map] at hname
    exact isSome_of_optional? h.kind hname
  · rw [get?_members_error] at hname
    exact isSome_of_optional? h.error hname

/-- **Records survive a round trip.** A record is read from its own text again, with its parts in
either order, unless its error is null, and what it does not know is left out of the text. So is a
record that comes from a document, whatever else the document has and in whatever form, and the text
of that record has no field that the document has not. An error that is null is lost. -/
theorem record_survives_round_trip :
    (∀ task : TaskInfo,
      (∀ error ∈ task.error, error ≠ .null ∧ error.Canonical ∧ Bounded error) →
      Represents task.text task ∧ Represents task.toJson.text task) ∧
    (∀ (document : String) (task : TaskInfo), read? document = some task →
      (∀ error ∈ task.error, Bounded error) →
      Represents task.text task ∧ Represents task.toJson.text task ∧
        ∀ name, HasField task.text name → HasField document name) ∧
    ∀ task : TaskInfo, task.error = some .null →
      read? task.text = some { task with error := none } := by
  refine ⟨?_, ?_, ?_⟩
  · intro task h
    refine represents_texts ?_ (fun error herror => (h error herror).2.1)
      fun error herror => (h error herror).2.2
    intro hnull
    exact (h .null hnull).1 rfl
  · intro document task hread hbounded
    obtain ⟨fields, hdocument, hfields⟩ := exists_fields_of_read? hread
    obtain ⟨htext, hvalue⟩ := represents_texts hfields.error_ne_null hfields.canonical hbounded
    refine ⟨htext, hvalue, fun name hname => ⟨fields, hdocument, hfields.hasField ?_⟩⟩
    exact (hasField_membersText (.refl _) (fun error herror => (hbounded error herror).whole)
      name).mp hname
  · intro task hnull
    have hcanonical : ∀ error ∈ task.error, error.Canonical := by
      rw [hnull]
      rintro error ⟨⟩
      exact .of_levels_eq_zero rfl
    have hbounded : ∀ error ∈ task.error, Bounded error := by
      rw [hnull]
      rintro error ⟨⟩
      exact ⟨.null, by decide⟩
    have hread := read?_membersText (.refl task.members) hcanonical hbounded
    rw [hnull] at hread
    exact hread

theorem record_survives_round_trip_nested :
    let error := Json.object [("a", .null), ("b", .array [.int (-1)])]
    let task : TaskInfo := ⟨7, .failed, none, some error⟩
    let document := "\x7b\"by\":0.5,\"error\":\x7b\"b\":[-1],\"a\":null\x7d,\"type\":null," ++
      "\"status\":\"failed\",\"uid\":7\x7d"
    (Represents task.text task ∧ Represents task.toJson.text task) ∧
      read? document = some task ∧
      (∀ name, HasField task.text name → HasField document name) ∧
      read? (TaskInfo.text ⟨7, .failed, none, some .null⟩) = some ⟨7, .failed, none, none⟩ := by
  intro error task document
  have hwhole : error.Whole := by
    refine Json.Whole.object_iff.mpr (List.forall_mem_cons.mpr ⟨.null, ?_⟩)
    refine List.forall_mem_singleton.mpr ?_
    exact Json.Whole.array_iff.mpr (List.forall_mem_singleton.mpr (.ofInt (by decide) (by decide)))
  have hcanonical : error.Canonical := by
    refine Json.Canonical.object_iff.mpr ⟨List.pairwise_pair.mpr (by decide), ?_⟩
    refine List.forall_mem_cons.mpr ⟨.of_levels_eq_zero rfl, List.forall_mem_singleton.mpr ?_⟩
    refine Json.Canonical.array_iff.mpr (List.forall_mem_singleton.mpr ?_)
    exact .of_levels_eq_zero rfl
  have hrecord : ∀ value ∈ task.error, value ≠ .null ∧ value.Canonical ∧ Bounded value := by
    rintro value ⟨⟩
    exact ⟨Json.noConfusion, hcanonical, hwhole, by decide⟩
  have hread : read? document = some task := by
    dsimp only [document, task, error]
    cbv
  have hdocument := record_survives_round_trip.2.1 document task hread fun value hvalue =>
    (hrecord value hvalue).2.2
  exact ⟨record_survives_round_trip.1 task hrecord, hread, hdocument.2.2,
    record_survives_round_trip.2.2 _ rfl⟩

end TaskInfo

end SearchFilter
