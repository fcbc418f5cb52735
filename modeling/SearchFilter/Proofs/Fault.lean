import Mathlib.Data.List.Forall2

/-!
# Faults in a sequence

Everything that can go wrong in a filter is reported as a fault, and the first fault ends the work.
These are the laws of such a sequence that the proofs take apart and put together with.
-/

namespace SearchFilter

universe u

variable {Fault α β : Type u}

@[simp]
theorem pure_eq_ok (a : α) : (pure a : Except Fault α) = .ok a := rfl

@[simp]
theorem ok_bind (a : α) (f : α → Except Fault β) : Except.ok a >>= f = f a := rfl

@[simp]
theorem error_bind (fault : Fault) (f : α → Except Fault β) :
    Except.error fault >>= f = .error fault := rfl

@[simp]
theorem bind_ok (x : Except Fault α) : x >>= Except.ok = x := bind_pure x

@[simp]
theorem bind_ok_comp (x : Except Fault α) (f : α → β) :
    (do let a ← x; Except.ok (f a)) = f <$> x := bind_pure_comp f x

@[simp]
theorem map_ok (f : α → β) (a : α) : (f <$> .ok a : Except Fault β) = .ok (f a) := rfl

@[simp]
theorem map_error (f : α → β) (fault : Fault) :
    (f <$> .error fault : Except Fault β) = .error fault := rfl

theorem bind_eq_ok_iff {x : Except Fault α} {f : α → Except Fault β} {b : β} :
    x >>= f = .ok b ↔ ∃ a, x = .ok a ∧ f a = .ok b := by
  cases x with
  | error fault => simp
  | ok a => simp

theorem map_eq_ok_iff {x : Except Fault α} {f : α → β} {b : β} :
    f <$> x = .ok b ↔ ∃ a, x = .ok a ∧ f a = b := by
  cases x with
  | error fault => simp
  | ok a => simp

theorem map_eq_error_iff {x : Except Fault α} {f : α → β} {fault : Fault} :
    f <$> x = .error fault ↔ x = .error fault := by
  cases x with
  | error fault' => simp
  | ok a => simp

theorem mapM_cons_eq_ok_iff {f : α → Except Fault β} {a : α} {rest : List α} {bs : List β} :
    (a :: rest).mapM f = .ok bs ↔
      ∃ b bs', f a = .ok b ∧ rest.mapM f = .ok bs' ∧ bs = b :: bs' := by
  rw [List.mapM_cons, bind_eq_ok_iff]
  constructor
  · rintro ⟨b, hb, h⟩
    obtain ⟨bs', hbs', h⟩ := bind_eq_ok_iff.mp h
    exact ⟨b, bs', hb, hbs', (Except.ok.inj h).symm⟩
  · rintro ⟨b, bs', hb, hbs', rfl⟩
    exact ⟨b, hb, bind_eq_ok_iff.mpr ⟨bs', hbs', rfl⟩⟩

theorem exists_mapM_eq_ok {f : α → Except Fault β} {as : List α}
    (h : ∀ a ∈ as, ∃ b, f a = .ok b) : ∃ bs, as.mapM f = .ok bs := by
  induction as with
  | nil => exact ⟨[], rfl⟩
  | cons a rest ih =>
      obtain ⟨b, hb⟩ := h a List.mem_cons_self
      obtain ⟨bs, hbs⟩ := ih fun a' ha' => h a' (List.mem_cons_of_mem a ha')
      exact ⟨b :: bs, mapM_cons_eq_ok_iff.mpr ⟨b, bs, hb, hbs, rfl⟩⟩

theorem mapM_eq_ok_iff {f : α → Except Fault β} {as : List α} {bs : List β} :
    as.mapM f = .ok bs ↔ List.Forall₂ (fun a b => f a = .ok b) as bs := by
  induction as generalizing bs with
  | nil => simp [eq_comm]
  | cons a rest ih =>
      rw [mapM_cons_eq_ok_iff, List.forall₂_cons_left_iff]
      simp only [ih]

theorem mem_iff_of_mapM_eq_ok {f : α → Except Fault β} {as : List α} {bs : List β}
    (h : as.mapM f = .ok bs) (b : β) : b ∈ bs ↔ ∃ a ∈ as, f a = .ok b := by
  induction as generalizing bs with
  | nil =>
      obtain rfl := Except.ok.inj h
      simp
  | cons a rest ih =>
      obtain ⟨b', bs', hb', hrest, rfl⟩ := mapM_cons_eq_ok_iff.mp h
      simp [hb', ih hrest, eq_comm]

/-! ### What decides a result -/

section Decided

variable {x : Except Fault α} {Good : α → Prop} {Bad : Fault → Prop}

/-- Of two conditions, one always holds, and each of them fixes the result. -/
structure Decided (x : Except Fault α) (Good : α → Prop) (Bad : Fault → Prop) : Prop where
  ok : ∀ a, Good a → x = .ok a
  error : ∀ fault, Bad fault → x = .error fault
  total : (∃ a, Good a) ∨ ∃ fault, Bad fault

theorem Decided.eq_ok_iff (h : Decided x Good Bad) {a : α} : x = .ok a ↔ Good a := by
  constructor
  · intro hx
    rcases h.total with ⟨a', hgood⟩ | ⟨fault, hbad⟩
    · rw [h.ok a' hgood] at hx
      exact Except.ok.inj hx ▸ hgood
    · rw [h.error fault hbad] at hx
      cases hx
  · exact h.ok a

theorem Decided.eq_error_iff (h : Decided x Good Bad) {fault : Fault} :
    x = .error fault ↔ Bad fault := by
  constructor
  · intro hx
    rcases h.total with ⟨a, hgood⟩ | ⟨fault', hbad⟩
    · rw [h.ok a hgood] at hx
      cases hx
    · rw [h.error fault' hbad] at hx
      exact Except.error.inj hx ▸ hbad
  · exact h.error fault

end Decided

/-! ### Work on an optional value -/

section Optional

variable {γ : Type u} {f : α → Except Fault β} {slot : Option α} {result : Option β}

theorem option_mapM_eq_ok_iff :
    slot.mapM f = .ok result ↔ Option.Rel (fun a b => f a = .ok b) slot result := by
  constructor
  · intro h
    cases slot with
    | none =>
        obtain rfl := Except.ok.inj h
        exact .none
    | some a =>
        rw [Option.mapM_some] at h
        obtain ⟨b, hb, rfl⟩ := map_eq_ok_iff.mp h
        exact .some hb
  · intro h
    cases h with
    | none => rfl
    | some hb => rw [Option.mapM_some, hb, map_ok]

theorem option_mapM_eq_error_iff {fault : Fault} :
    slot.mapM f = .error fault ↔ ∃ a, slot = some a ∧ f a = .error fault := by
  cases slot with
  | none => simp
  | some a => simp [map_eq_error_iff]

theorem isSome_of_mapM_eq_ok (h : slot.mapM f = .ok result) : result.isSome = slot.isSome := by
  cases slot with
  | none =>
      obtain rfl := Except.ok.inj h
      rfl
  | some a =>
      rw [Option.mapM_some] at h
      obtain ⟨b, -, rfl⟩ := map_eq_ok_iff.mp h
      rfl

theorem eq_some_iff_of_mapM_eq_ok (h : slot.mapM f = .ok result) {b : β} :
    result = some b ↔ ∃ a, slot = some a ∧ f a = .ok b := by
  cases slot with
  | none =>
      obtain rfl := Except.ok.inj h
      simp
  | some a =>
      rw [Option.mapM_some] at h
      obtain ⟨b', hb', rfl⟩ := map_eq_ok_iff.mp h
      simp [hb']

theorem mapM_map_of_mapM_eq_ok (g : β → γ) (h : slot.mapM f = .ok result) :
    slot.mapM (fun a => g <$> f a) = .ok (result.map g) := by
  cases slot with
  | none =>
      obtain rfl := Except.ok.inj h
      rfl
  | some a =>
      rw [Option.mapM_some] at h
      obtain ⟨b, hb, rfl⟩ := map_eq_ok_iff.mp h
      rw [Option.mapM_some, hb]
      rfl

end Optional

/-! ### The fault of a result

What a result is worth beyond its fault does not matter to whether work goes on. The fault of a
sequence is the fault of its first part that has one. -/

/-- The fault that a result is, if it is one. -/
def faultOf : Except Fault α → Option Fault
  | .ok _ => none
  | .error fault => some fault

@[simp]
theorem faultOf_ok (a : α) : faultOf (.ok a : Except Fault α) = none := rfl

@[simp]
theorem faultOf_error (fault : Fault) : faultOf (.error fault : Except Fault α) = some fault := rfl

theorem faultOf_eq_none_iff {x : Except Fault α} : faultOf x = none ↔ ∃ a, x = .ok a := by
  cases x with
  | error fault => simp
  | ok a => simp

theorem faultOf_eq_some_iff {x : Except Fault α} {fault : Fault} :
    faultOf x = some fault ↔ x = .error fault := by
  cases x with
  | error fault' => simp
  | ok a => simp

@[simp]
theorem faultOf_map (f : α → β) (x : Except Fault α) : faultOf (f <$> x) = faultOf x := by
  cases x <;> rfl

theorem faultOf_mapM (f : α → Except Fault β) (as : List α) :
    faultOf (as.mapM f) = as.findSome? fun a => faultOf (f a) := by
  induction as with
  | nil => rfl
  | cons a rest ih =>
      rw [List.mapM_cons, List.findSome?_cons, ← ih]
      cases f a with
      | error fault => rfl
      | ok b => exact faultOf_map (b :: ·) (rest.mapM f)

theorem mapM_eq_error_iff {f : α → Except Fault β} {as : List α} {fault : Fault} :
    as.mapM f = .error fault ↔
      ∃ before a after, as = before ++ a :: after ∧ f a = .error fault ∧
        ∀ earlier ∈ before, ∃ b, f earlier = .ok b := by
  rw [← faultOf_eq_some_iff, faultOf_mapM, List.findSome?_eq_some_iff]
  simp only [faultOf_eq_some_iff, faultOf_eq_none_iff]

end SearchFilter
