import SearchFilter.Decimal.Binary64

/-!
# JSON values

A JSON value with exact integers beside binary64 numbers. The members of an object are kept in the
order of their keys, and each key occurs once, so that two objects with the same members are equal.
-/

namespace SearchFilter

inductive Json where
  | null
  | bool (b : Bool)
  | int (n : Int)
  | double (x : Binary64)
  | string (s : String)
  | array (items : List Json)
  | object (members : List (String × Json))
  deriving Repr

namespace Json

abbrev Members := List (String × Json)

/-- Adds a member in its place. A key that is there already gets the new value. -/
def Members.insert : Members → String → Json → Members
  | [], key, value => [(key, value)]
  | (first, other) :: rest, key, value =>
    if key < first then (key, value) :: (first, other) :: rest
    else if key = first then (key, value) :: rest
    else (first, other) :: Members.insert rest key value

def Members.extend (members more : Members) : Members :=
  more.foldl (fun members (key, value) => members.insert key value) members

def Members.get? : Members → String → Option Json
  | [], _ => none
  | (first, value) :: rest, key => if key = first then some value else Members.get? rest key

theorem Members.get?_insert (members : Members) (key other : String) (value : Json) :
    Members.get? (Members.insert members key value) other =
      if other = key then some value else Members.get? members other := by
  induction members with
  | nil => simp [insert, get?]
  | cons member rest ih =>
      obtain ⟨first, current⟩ := member
      rw [insert]
      split
      · rw [get?]
      · split
        · subst key
          by_cases h : other = first <;> simp [get?, h]
        · rw [get?, get?, ih]
          by_cases h : other = first <;> grind

/-- The object of these members. Of several members with one key the last one counts. -/
def ofMembers (members : Members) : Json :=
  object (Members.extend [] members)

end Json

end SearchFilter
