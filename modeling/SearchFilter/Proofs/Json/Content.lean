import SearchFilter.Proofs.Json.Members

/-!
# What a value holds

A value holds itself, and an array or an object holds all that its items or members hold. Whatever
is asked of every part of a value is then handed down to the parts, so the conditions under which a
value can be written and read again are stated of the whole: its numbers are integers of 64 bits,
its objects are in order, and it does not nest too deep.
-/

namespace SearchFilter.Json

/-- Induction over a value, from its items and members up. -/
@[elab_as_elim]
theorem induction {motive : Json → Prop} (null : motive .null) (bool : ∀ b, motive (.bool b))
    (int : ∀ n, motive (.int n)) (double : ∀ x, motive (.double x))
    (string : ∀ s, motive (.string s))
    (array : ∀ items, (∀ item ∈ items, motive item) → motive (.array items))
    (object : ∀ members, (∀ member ∈ members, motive member.2) → motive (.object members))
    (value : Json) : motive value :=
  @Json.rec motive (fun items => ∀ item ∈ items, motive item)
    (fun members => ∀ member ∈ members, motive member.2) (fun member => motive member.2)
    null bool int double string array object
    (List.forall_mem_nil _) (fun _ _ hitem hrest => List.forall_mem_cons.mpr ⟨hitem, hrest⟩)
    (List.forall_mem_nil _) (fun _ _ hmember hrest => List.forall_mem_cons.mpr ⟨hmember, hrest⟩)
    (fun _ _ hvalue => hvalue) value

/-- The second value is the first one or stands somewhere inside it. -/
inductive Holds : Json → Json → Prop where
  | self (value : Json) : Holds value value
  | item {items : List Json} {item part : Json} :
      item ∈ items → Holds item part → Holds (.array items) part
  | member {members : Members} {member : String × Json} {part : Json} :
      member ∈ members → Holds member.2 part → Holds (.object members) part

theorem Holds.trans {value part inner : Json} (h : value.Holds part) (hpart : part.Holds inner) :
    value.Holds inner := by
  induction h with
  | self => exact hpart
  | item hmem _ ih => exact .item hmem (ih hpart)
  | member hmem _ ih => exact .member hmem (ih hpart)

/-! ### Numbers -/

/-- Every number is an integer of 64 bits, with a sign or without. -/
structure Whole (value : Json) : Prop where
  int : ∀ n, value.Holds (.int n) → -0x8000000000000000 ≤ n ∧ n < UInt64.size
  double : ∀ x, ¬value.Holds (.double x)

namespace Whole

variable {items : List Json} {members : Members}

theorem of_holds {value part : Json} (h : value.Whole) (hpart : value.Holds part) : part.Whole where
  int n hn := h.int n (hpart.trans hn)
  double x hx := h.double x (hpart.trans hx)

theorem null : Whole .null where
  int _ hn := nomatch hn
  double _ hx := nomatch hx

theorem ofInt {n : Int} (hlow : -0x8000000000000000 ≤ n) (hhigh : n < UInt64.size) :
    Whole (.int n) where
  int _ hn := by
    cases hn
    exact ⟨hlow, hhigh⟩
  double _ hx := nomatch hx

theorem string (s : String) : Whole (.string s) where
  int _ hn := nomatch hn
  double _ hx := nomatch hx

theorem array_iff : Whole (.array items) ↔ ∀ item ∈ items, item.Whole := by
  constructor
  · exact fun h item hmem => h.of_holds (.item hmem (.self item))
  · intro h
    constructor
    · rintro n (_ | ⟨hmem, hn⟩)
      exact (h _ hmem).int n hn
    · rintro x (_ | ⟨hmem, hx⟩)
      exact (h _ hmem).double x hx

theorem object_iff : Whole (.object members) ↔ ∀ member ∈ members, member.2.Whole := by
  constructor
  · exact fun h member hmem => h.of_holds (.member hmem (.self member.2))
  · intro h
    constructor
    · rintro n (_ | _ | ⟨hmem, hn⟩)
      exact (h _ hmem).int n hn
    · rintro x (_ | _ | ⟨hmem, hx⟩)
      exact (h _ hmem).double x hx

end Whole

/-! ### Objects -/

/-- Every object is in order. -/
def Canonical (value : Json) : Prop :=
  ∀ members, value.Holds (.object members) → Members.Sorted members

namespace Canonical

variable {items : List Json} {members : Members}

theorem of_holds {value part : Json} (h : value.Canonical) (hpart : value.Holds part) :
    part.Canonical :=
  fun members hmembers => h members (hpart.trans hmembers)

theorem array_iff : Canonical (.array items) ↔ ∀ item ∈ items, item.Canonical := by
  constructor
  · exact fun h item hmem => h.of_holds (.item hmem (.self item))
  · rintro h inner (_ | ⟨hmem, hinner⟩)
    exact h _ hmem inner hinner

theorem object_iff : Canonical (.object members) ↔
    Members.Sorted members ∧ ∀ member ∈ members, member.2.Canonical := by
  constructor
  · exact fun h => ⟨h members (.self _), fun member hmem =>
      h.of_holds (.member hmem (.self member.2))⟩
  · rintro ⟨hsorted, h⟩ inner (_ | _ | ⟨hmem, hinner⟩)
    · exact hsorted
    · exact h _ hmem inner hinner

end Canonical

/-! ### Nesting -/

mutual

/-- How many arrays and objects stand in one another at most. -/
def levels : Json → Nat
  | array items => itemLevels items + 1
  | object members => memberLevels members + 1
  | null | bool _ | int _ | double _ | string _ => 0

def itemLevels : List Json → Nat
  | [] => 0
  | item :: rest => max item.levels (itemLevels rest)

def memberLevels : List (String × Json) → Nat
  | [] => 0
  | (_, value) :: rest => max value.levels (memberLevels rest)

end

theorem itemLevels_le_iff {items : List Json} {depth : Nat} :
    itemLevels items ≤ depth ↔ ∀ item ∈ items, item.levels ≤ depth := by
  induction items with
  | nil => simp [itemLevels]
  | cons item rest ih => rw [itemLevels, max_le_iff, ih, List.forall_mem_cons]

theorem memberLevels_le_iff {members : Members} {depth : Nat} :
    memberLevels members ≤ depth ↔ ∀ member ∈ members, member.2.levels ≤ depth := by
  induction members with
  | nil => simp [memberLevels]
  | cons member rest ih => rw [memberLevels, max_le_iff, ih, List.forall_mem_cons]

/-- What has nothing in it has no object that could be out of order. -/
theorem Canonical.of_levels_eq_zero {value : Json} (h : value.levels = 0) : value.Canonical := by
  cases value with
  | null | bool b | int n | double x | string s => exact fun _ hholds => nomatch hholds
  | array items | object members => cases h

end SearchFilter.Json
