import SearchFilter.Json.Written
import Mathlib.Data.List.Basic

/-!
# The tokens of a written value

A written value has one sequence of tokens, in which the items of an array and the members of an
object are separated by commas. The machine that builds values from tokens builds that value again,
from whatever stack it starts with, so nothing that is still open can change what is read inside it.
-/

namespace SearchFilter.Json.Written

/-- Induction over a written value, from its items and members up. -/
@[elab_as_elim]
theorem induction {motive : Written → Prop} (null : motive .null) (bool : ∀ b, motive (.bool b))
    (number : ∀ n, motive (.number n)) (string : ∀ pieces, motive (.string pieces))
    (array : ∀ items, (∀ item ∈ items, motive item) → motive (.array items))
    (object : ∀ members, (∀ member ∈ members, motive member.2) → motive (.object members))
    (value : Written) : motive value :=
  @Written.rec motive (fun items => ∀ item ∈ items, motive item)
    (fun members => ∀ member ∈ members, motive member.2) (fun member => motive member.2)
    null bool number string array object
    (List.forall_mem_nil _) (fun _ _ hitem hrest => List.forall_mem_cons.mpr ⟨hitem, hrest⟩)
    (List.forall_mem_nil _) (fun _ _ hmember hrest => List.forall_mem_cons.mpr ⟨hmember, hrest⟩)
    (fun _ _ hvalue => hvalue) value

/-- Parts with a comma between every two of them. -/
def separated (parts : List (List Token)) : List Token :=
  [Token.comma].intercalate parts

theorem separated_singleton (part : List Token) : separated [part] = part :=
  List.intercalate_singleton

theorem separated_cons_cons (part next : List Token) (parts : List (List Token)) :
    separated (part :: next :: parts) = part ++ .comma :: separated (next :: parts) := by
  rw [separated, List.intercalate_cons_cons, List.append_assoc, List.singleton_append, ← separated]

theorem exists_separated_eq_append (part : List Token) (parts : List (List Token)) :
    ∃ more, separated (part :: parts) = part ++ more := by
  cases parts with
  | nil => exact ⟨[], by rw [separated_singleton, List.append_nil]⟩
  | cons next parts => exact ⟨_, separated_cons_cons part next parts⟩

mutual

def tokens : Written → List Token
  | null => [.null]
  | bool b => [.bool b]
  | number n => [.number n]
  | string pieces => [.string pieces]
  | array items => .openBracket :: (separated (itemTokens items) ++ [.closeBracket])
  | object members => .openBrace :: (separated (memberTokens members) ++ [.closeBrace])

def itemTokens : List Written → List (List Token)
  | [] => []
  | item :: rest => item.tokens :: itemTokens rest

def memberTokens : List (List Piece × Written) → List (List Token)
  | [] => []
  | (key, value) :: rest => (.string key :: .colon :: value.tokens) :: memberTokens rest

end

theorem itemTokens_eq_map (items : List Written) : itemTokens items = items.map tokens := by
  induction items with
  | nil => rfl
  | cons item rest ih => rw [itemTokens, ih, List.map_cons]

theorem memberTokens_eq_map (members : List (List Piece × Written)) :
    memberTokens members =
      members.map fun (key, value) => .string key :: .colon :: value.tokens := by
  induction members with
  | nil => rfl
  | cons member rest ih => rw [memberTokens, ih, List.map_cons]

/-! ### The machine -/

/-- Reading the tokens takes the machine from the first state to the second. -/
def Leads (tokens : List Token) (state state' : State) : Prop :=
  tokens.foldlM State.step? state = some state'

section Leads

variable {state state' : State} {token : Token} {first second : List Token}

theorem Leads.single (hstep : state.step? token = some state') : Leads [token] state state' := by
  rw [Leads, List.foldlM_cons, hstep]
  rfl

theorem Leads.append {next : State} (hfirst : Leads first state next)
    (hsecond : Leads second next state') :
    Leads (first ++ second) state state' := by
  rw [Leads, List.foldlM_append, hfirst]
  exact hsecond

theorem Leads.cons (next : State) (hstep : state.step? token = some next)
    (h : Leads second next state') : Leads (token :: second) state state' :=
  (Leads.single hstep).append h

/-- Parts are read one by one into what has been read before. The machine is in the state `start`
where a part may begin, and in the state `filled` behind one. -/
theorem leads_separated {α : Type} {tokens : α → List Token} (start : List α → State)
    (filled : List α → α → State) (finish : List α → State) (close : Token) {parts : List α}
    {part : α} (hpart : ∀ a ∈ part :: parts, ∀ done, Leads (tokens a) (start done) (filled done a))
    (hcomma : ∀ done a, (filled done a).step? .comma = some (start (a :: done)))
    (hclose : ∀ done a, (filled done a).step? close = some (finish (a :: done)))
    (done : List α) :
    Leads (separated ((part :: parts).map tokens) ++ [close]) (start done)
      (finish ((part :: parts).reverse ++ done)) := by
  induction parts generalizing part done with
  | nil =>
      rw [List.map_singleton, separated_singleton]
      exact (hpart part List.mem_cons_self done).append (.single (hclose done part))
  | cons next parts ih =>
      obtain ⟨hfirst, hrest⟩ := List.forall_mem_cons.mp hpart
      have hlater := ih hrest (part :: done)
      rw [List.map_cons, List.map_cons, separated_cons_cons, List.append_assoc, List.cons_append,
        List.reverse_cons, List.append_assoc]
      exact (hfirst done).append (.cons _ (hcomma done part) hlater)

end Leads

/-- The first item of an array is read like any other, as no value begins with a token that closes
an array. -/
theorem Leads.firstItem {value : Written} {more : List Token} {stack : List Frame} {state : State}
    (h : Leads (value.tokens ++ more) (.value (.array [] :: stack)) state) :
    Leads (value.tokens ++ more) (.firstItem stack) state := by
  obtain ⟨token, rest, htokens, hstep⟩ : ∃ token rest, value.tokens = token :: rest ∧
      (State.firstItem stack).step? token = (State.value (.array [] :: stack)).step? token := by
    cases value <;> exact ⟨_, _, rfl, rfl⟩
  rw [htokens, List.cons_append, Leads, List.foldlM_cons] at h ⊢
  rw [hstep]
  exact h

theorem Leads.firstKey {key : List Piece} {more : List Token} {stack : List Frame} {state : State}
    (h : Leads (.string key :: more) (.key [] stack) state) :
    Leads (.string key :: more) (.firstKey stack) state := h

/-- The machine reads the value wherever one may stand. -/
def Readable (value : Written) : Prop :=
  ∀ stack, Leads value.tokens (.value stack) (.after value stack)

theorem readable_array {items : List Written} (h : ∀ item ∈ items, item.Readable) :
    (array items).Readable := by
  intro stack
  rw [tokens, itemTokens_eq_map]
  refine .cons (.firstItem stack) rfl ?_
  cases items with
  | nil => exact .single rfl
  | cons item items =>
      have hitems : Leads (separated ((item :: items).map tokens) ++ [.closeBracket])
          (.value (.array [] :: stack)) (.after (array (item :: items)) stack) := by
        have hread := leads_separated (fun done => .value (.array done :: stack))
          (fun done a => .after a (.array done :: stack))
          (fun done => .after (array done.reverse) stack) .closeBracket
          (fun a ha done => h a ha (.array done :: stack)) (fun _ _ => rfl) (fun _ _ => rfl) []
        simpa only [List.append_nil, List.reverse_reverse] using hread
      obtain ⟨more, hmore⟩ := exists_separated_eq_append item.tokens (items.map tokens)
      rw [List.map_cons, hmore, List.append_assoc] at hitems ⊢
      exact hitems.firstItem

theorem readable_object {members : List (List Piece × Written)}
    (h : ∀ member ∈ members, member.2.Readable) : (object members).Readable := by
  intro stack
  rw [tokens, memberTokens_eq_map]
  refine .cons (.firstKey stack) rfl ?_
  cases members with
  | nil => exact .single rfl
  | cons member members =>
      have hmember : ∀ a ∈ member :: members, ∀ done : List (List Piece × Written),
          Leads (.string a.1 :: .colon :: a.2.tokens) (.key done stack)
            (.after a.2 (.object done a.1 :: stack)) :=
        fun a ha done => .cons (.colon done a.1 stack) rfl
          (.cons _ rfl (h a ha (.object done a.1 :: stack)))
      have hmembers : Leads (separated ((member :: members).map fun a =>
            .string a.1 :: .colon :: a.2.tokens) ++ [.closeBrace])
          (.key [] stack) (.after (object (member :: members)) stack) := by
        have hread := leads_separated (fun done => .key done stack)
          (fun done a => .after a.2 (.object done a.1 :: stack))
          (fun done => .after (object done.reverse) stack) .closeBrace hmember (fun _ _ => rfl)
          (fun _ _ => rfl) []
        simpa only [List.append_nil, List.reverse_reverse] using hread
      obtain ⟨more, hmore⟩ := exists_separated_eq_append
        (.string member.1 :: .colon :: member.2.tokens)
        (members.map fun a => .string a.1 :: .colon :: a.2.tokens)
      rw [List.map_cons, hmore] at hmembers ⊢
      exact hmembers.firstKey

theorem readable (value : Written) : value.Readable := by
  induction value using Written.induction with
  | null | bool | number | string => exact fun _ => .single rfl
  | array items ih => exact readable_array ih
  | object members ih => exact readable_object ih

theorem ofTokens?_tokens (value : Written) : ofTokens? value.tokens = some value := by
  have hread : value.tokens.foldlM State.step? (.value []) = some (.after value []) :=
    value.readable []
  rw [ofTokens?, hread]
  rfl

end SearchFilter.Json.Written
