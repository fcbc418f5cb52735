import SearchFilter.Json.Basic
import Mathlib.Data.List.Perm.Basic
import Mathlib.Data.String.Basic
import Mathlib.Tactic.SplitIfs

/-!
# The members of an object

An object keeps its members in the order of their keys, so it holds them in another order than they
are given. As long as no key is given twice, that is all that happens: nothing is lost, and nothing
is overwritten. Where one object extends another, the value of a key is the one in the extension, if
the key occurs there.
-/

namespace SearchFilter.Json.Members

def keys (members : Members) : List String :=
  members.map (·.1)

theorem keys_append (members more : Members) : keys (members ++ more) = keys members ++ keys more :=
  List.map_append

theorem perm_keys {members more : Members} (h : members.Perm more) :
    (keys members).Perm (keys more) :=
  h.map _

theorem insert_perm {members : Members} {key : String} (value : Json)
    (h : key ∉ keys members) : (insert members key value).Perm ((key, value) :: members) := by
  induction members with
  | nil => exact .refl _
  | cons member rest ih =>
      have hne : key ≠ member.1 := List.ne_of_not_mem_cons h
      have hrest : key ∉ keys rest := List.not_mem_of_not_mem_cons h
      rw [insert, if_neg hne]
      split_ifs
      · exact .refl _
      · exact ((ih hrest).cons member).trans (.swap _ _ _)

theorem extend_perm {members more : Members} (h : (keys (members ++ more)).Nodup) :
    (extend members more).Perm (members ++ more) := by
  induction more generalizing members with
  | nil => rw [List.append_nil]; exact .refl _
  | cons member rest ih =>
      -- The next member is moved to the front, where it can be seen to have a new key.
      have hmiddle : (members ++ member :: rest).Perm (member :: (members ++ rest)) :=
        List.perm_middle
      have hfront : (keys (member :: (members ++ rest))).Nodup := (perm_keys hmiddle).nodup_iff.mp h
      have hnew : member.1 ∉ keys (members ++ rest) := (List.nodup_cons.mp hfront).1
      have hkey : member.1 ∉ keys members := by
        rw [keys_append, List.mem_append, not_or] at hnew
        exact hnew.1
      have hinsert : (insert members member.1 member.2 ++ rest).Perm (member :: (members ++ rest)) :=
        (insert_perm member.2 hkey).append_right rest
      have hnodup : (keys (insert members member.1 member.2 ++ rest)).Nodup :=
        (perm_keys hinsert).nodup_iff.mpr hfront
      exact ((ih hnodup).trans hinsert).trans hmiddle.symm

/-! ### Look-up -/

theorem get?_eq_none_iff {members : Members} {key : String} :
    get? members key = none ↔ key ∉ keys members := by
  induction members with
  | nil => simp [get?, keys]
  | cons member rest ih =>
      rw [get?, keys, List.map_cons, List.mem_cons, not_or]
      split_ifs with hkey
      · simp [hkey]
      · rw [ih]
        exact (and_iff_right hkey).symm

theorem get?_extend {more : Members} (hmore : (keys more).Nodup) (members : Members)
    (key : String) : get? (extend members more) key = (get? more key).or (get? members key) := by
  induction more generalizing members with
  | nil => rfl
  | cons member rest ih =>
      obtain ⟨hnew, hrest⟩ := List.nodup_cons.mp hmore
      have hstep : extend members (member :: rest) =
          extend (insert members member.1 member.2) rest := rfl
      rw [hstep, ih hrest, get?_insert, get?]
      split_ifs with hkey
      · rw [hkey, get?_eq_none_iff.mpr hnew]
        rfl
      · rfl

/-- Where no key is given twice, the order of the members does not matter. -/
theorem get?_eq_of_perm {members more : Members} (h : members.Perm more)
    (hnodup : (keys members).Nodup) (key : String) : get? members key = get? more key := by
  induction h with
  | nil => rfl
  | cons member _ ih => rw [get?, get?, ih (List.nodup_cons.mp hnodup).2]
  | swap member member' rest =>
      have hne : member'.1 ≠ member.1 := List.ne_of_not_mem_cons (List.nodup_cons.mp hnodup).1
      simp only [get?]
      split_ifs with hkey hkey' hkey'
      · exact absurd (hkey.symm.trans hkey') hne
      · rfl
      · rfl
      · rfl
  | trans hfirst _ ihFirst ihSecond =>
      rw [ihFirst hnodup, ihSecond ((perm_keys hfirst).nodup_iff.mp hnodup)]

/-! ### Order -/

/-- The members are those of an object: each key occurs once, and keys are in order. -/
def Sorted (members : Members) : Prop :=
  members.Pairwise fun member member' => member.1 < member'.1

theorem mem_insert {members : Members} {key : String} {value : Json} {member : String × Json}
    (h : member ∈ insert members key value) : member = (key, value) ∨ member ∈ members := by
  induction members with
  | nil => exact .inl (List.mem_singleton.mp h)
  | cons first rest ih =>
      rw [insert] at h
      split_ifs at h with hlt heq
      · exact List.mem_cons.mp h
      · exact (List.mem_cons.mp h).imp_right (List.mem_cons_of_mem first)
      · rcases List.mem_cons.mp h with hfirst | hrest
        · exact .inr (hfirst ▸ List.mem_cons_self)
        · exact (ih hrest).imp_right (List.mem_cons_of_mem first)

theorem mem_extend {members more : Members} {member : String × Json}
    (h : member ∈ extend members more) : member ∈ members ∨ member ∈ more := by
  induction more generalizing members with
  | nil => exact .inl h
  | cons first rest ih =>
      rcases ih h with hinsert | hrest
      · rcases mem_insert hinsert with rfl | hmember
        · exact .inr List.mem_cons_self
        · exact .inl hmember
      · exact .inr (List.mem_cons_of_mem first hrest)

theorem sorted_insert {members : Members} (h : Sorted members) (key : String) (value : Json) :
    Sorted (insert members key value) := by
  induction members with
  | nil => exact List.pairwise_singleton _ _
  | cons first rest ih =>
      obtain ⟨hfirst, hrest⟩ := List.pairwise_cons.mp h
      rw [insert]
      split_ifs with hlt heq
      · refine List.pairwise_cons.mpr ⟨?_, h⟩
        rw [List.forall_mem_cons]
        exact ⟨hlt, fun member hmember => lt_trans hlt (hfirst member hmember)⟩
      · exact List.pairwise_cons.mpr ⟨fun member hmember => heq ▸ hfirst member hmember, hrest⟩
      · refine List.pairwise_cons.mpr ⟨fun member hmember => ?_, ih hrest⟩
        rcases mem_insert hmember with rfl | hmember
        · exact lt_of_le_of_ne (not_lt.mp hlt) (Ne.symm heq)
        · exact hfirst member hmember

theorem sorted_extend {members : Members} (h : Sorted members) (more : Members) :
    Sorted (extend members more) := by
  induction more generalizing members with
  | nil => exact h
  | cons member rest ih => exact ih (sorted_insert h member.1 member.2)

theorem insert_of_forall_lt {members : Members} {key : String}
    (h : ∀ member ∈ members, member.1 < key) (value : Json) :
    insert members key value = members ++ [(key, value)] := by
  induction members with
  | nil => rfl
  | cons first rest ih =>
      obtain ⟨hfirst, hrest⟩ := List.forall_mem_cons.mp h
      rw [insert, if_neg (not_lt_of_gt hfirst), if_neg (ne_of_gt hfirst), ih hrest, List.cons_append]

/-- Members that are in order already stay as they are. -/
theorem extend_of_sorted {members more : Members} (h : Sorted (members ++ more)) :
    extend members more = members ++ more := by
  induction more generalizing members with
  | nil => rw [List.append_nil]; rfl
  | cons member rest ih =>
      have hlt : ∀ earlier ∈ members, earlier.1 < member.1 := fun earlier hearlier =>
        (List.pairwise_append.mp h).2.2 earlier hearlier member List.mem_cons_self
      have hstep : extend members (member :: rest) =
          extend (insert members member.1 member.2) rest := rfl
      rw [List.append_cons] at h
      rw [hstep, insert_of_forall_lt hlt, ih h, ← List.append_cons]

end SearchFilter.Json.Members
