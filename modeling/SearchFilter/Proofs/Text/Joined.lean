import Mathlib.Data.List.Basic

/-!
# Joined texts

Texts that are joined by a separator can be told apart if each of them ends where it can be seen,
once the separator follows. It does not matter whether the separator occurs in a text, as long as
nothing else can be read up to there.
-/

namespace SearchFilter

/-- A text without the character `c` ends where `c` first stands. -/
theorem append_cons_inj {c : Char} {first second rest rest' : List Char} (hfirst : c ∉ first)
    (hsecond : c ∉ second) (h : first ++ c :: rest = second ++ c :: rest') :
    first = second ∧ rest = rest' := by
  induction first generalizing second with
  | nil =>
      cases second with
      | nil => exact ⟨rfl, (List.cons.inj h).2⟩
      | cons d second => exact absurd ((List.cons.inj h).1 ▸ List.mem_cons_self) hsecond
  | cons d first ih =>
      cases second with
      | nil => exact absurd ((List.cons.inj h).1 ▸ List.mem_cons_self) hfirst
      | cons d' second =>
          obtain ⟨hd, htail⟩ := List.cons.inj h
          obtain ⟨hrest, hend⟩ := ih (List.not_mem_of_not_mem_cons hfirst)
            (List.not_mem_of_not_mem_cons hsecond) htail
          exact ⟨by rw [hd, hrest], hend⟩

variable {α : Type} {separator : List Char} {text : α → List Char} {Good : α → Prop}

/-- What is written for good items shows where it ends before a separator. -/
structure Separable (separator : List Char) (text : α → List Char) (Good : α → Prop) : Prop where
  ne_nil : ∀ a, Good a → text a ≠ []
  append_inj : ∀ {a b rest rest'}, Good a → Good b →
    text a ++ (separator ++ rest) = text b ++ (separator ++ rest') → a = b ∧ rest = rest'

theorem intercalate_append_separator {parts : List (List Char)} (h : parts ≠ []) :
    separator.intercalate parts ++ separator = parts.flatMap (· ++ separator) := by
  induction parts with
  | nil => exact absurd rfl h
  | cons part parts ih =>
      cases parts with
      | nil => simp
      | cons next parts =>
          rw [List.intercalate_cons_cons, List.append_assoc, ih (List.cons_ne_nil next parts)]
          rfl

theorem intercalate_ne_nil {part : List Char} (h : part ≠ []) (parts : List (List Char)) :
    separator.intercalate (part :: parts) ≠ [] := by
  cases parts with
  | nil => simpa using h
  | cons next parts => simp [List.intercalate_cons_cons, h]

namespace Separable

theorem eq_of_flatMap_eq (hsep : Separable separator text Good) {items items' : List α}
    (hitems : ∀ a ∈ items, Good a) (hitems' : ∀ a ∈ items', Good a)
    (h : (items.map text).flatMap (· ++ separator) = (items'.map text).flatMap (· ++ separator)) :
    items = items' := by
  induction items generalizing items' with
  | nil =>
      cases items' with
      | nil => rfl
      | cons a' rest' =>
          have hne := hsep.ne_nil a' (hitems' a' List.mem_cons_self)
          simp [hne] at h
  | cons a rest ih =>
      cases items' with
      | nil =>
          have hne := hsep.ne_nil a (hitems a List.mem_cons_self)
          simp [hne] at h
      | cons a' rest' =>
          rw [List.forall_mem_cons] at hitems hitems'
          simp only [List.map_cons, List.flatMap_cons, List.append_assoc] at h
          obtain ⟨rfl, hrest⟩ := hsep.append_inj hitems.1 hitems'.1 h
          rw [ih hitems.2 hitems'.2 hrest]

theorem eq_of_intercalate_eq (hsep : Separable separator text Good) {items items' : List α}
    (hitems : ∀ a ∈ items, Good a) (hitems' : ∀ a ∈ items', Good a)
    (h : separator.intercalate (items.map text) = separator.intercalate (items'.map text)) :
    items = items' := by
  cases items with
  | nil =>
      cases items' with
      | nil => rfl
      | cons a' rest' =>
          have hne := hsep.ne_nil a' (hitems' a' List.mem_cons_self)
          exact absurd h.symm (intercalate_ne_nil hne _)
  | cons a rest =>
      cases items' with
      | nil =>
          have hne := hsep.ne_nil a (hitems a List.mem_cons_self)
          exact absurd h (intercalate_ne_nil hne _)
      | cons a' rest' =>
          have hjoined : separator.intercalate ((a :: rest).map text) ++ separator =
              separator.intercalate ((a' :: rest').map text) ++ separator := by rw [h]
          rw [intercalate_append_separator (by simp), intercalate_append_separator (by simp)]
            at hjoined
          exact hsep.eq_of_flatMap_eq hitems hitems' hjoined

end Separable

end SearchFilter
