import SearchFilter.Expr.Render

/-!
# Lines and their indentation

A text of several lines can be taken apart again: into its lines, and each line into its indentation
and what stands behind it. Nothing is mistaken for anything else as long as what is written on a
line stays on it and does not begin with a space.
-/

namespace SearchFilter

/-- The text stays on one line and does not begin with a space. -/
def Flush (text : String) : Prop :=
  '\n' ∉ text.toList ∧ text.toList.head? ≠ some ' '

instance (text : String) : Decidable (Flush text) :=
  inferInstanceAs (Decidable (_ ∧ _))

/-- The parts of a text between its line breaks. -/
def textLines (text : String) : List String :=
  (text.toList.splitOn '\n').map String.ofList

/-- How many spaces a line begins with. -/
def indentation (line : String) : Nat :=
  (line.toList.takeWhile (· == ' ')).length

def unindented (line : String) : String :=
  String.ofList (line.toList.dropWhile (· == ' '))

theorem textLines_intercalate {lines : List String} (hne : lines ≠ [])
    (hlines : ∀ line ∈ lines, '\n' ∉ line.toList) :
    textLines ("\n".intercalate lines) = lines := by
  have hsplit : (("\n".intercalate lines).toList).splitOn '\n' = lines.map String.toList := by
    rw [String.toList_intercalate]
    apply List.splitOn_intercalate
    · simpa using hlines
    · simpa using hne
  rw [textLines, hsplit, List.map_map]
  simp [Function.comp_def]

namespace Flush

variable {text : String}

theorem takeWhile_toList (h : Flush text) : text.toList.takeWhile (· == ' ') = [] := by
  cases hchars : text.toList with
  | nil => rfl
  | cons c rest =>
      have hc : c ≠ ' ' := fun hc => h.2 (by rw [hchars, hc]; rfl)
      rw [List.takeWhile_cons_of_neg (by simpa using hc)]

theorem dropWhile_toList (h : Flush text) : text.toList.dropWhile (· == ' ') = text.toList := by
  have hchars := List.takeWhile_append_dropWhile (p := (· == ' ')) (l := text.toList)
  rwa [h.takeWhile_toList, List.nil_append] at hchars

end Flush

namespace Expr

theorem toList_indent (level : Nat) (line : String) :
    (indent level line).toList = List.replicate (4 * level) ' ' ++ line.toList := by
  simp [indent]

theorem not_mem_toList_indent {level : Nat} {line : String} (h : '\n' ∉ line.toList) :
    '\n' ∉ (indent level line).toList := by
  rw [toList_indent, List.mem_append, List.mem_replicate]
  rintro (⟨-, hspace⟩ | hmem)
  · exact absurd hspace (by decide)
  · exact h hmem

section Flush

variable {text : String} (level : Nat)

theorem beq_space_of_mem_replicate {n : Nat} : ∀ c ∈ List.replicate n ' ', (c == ' ') = true := by
  intro c hc
  rw [List.eq_of_mem_replicate hc, beq_self_eq_true]

theorem indentation_indent (h : Flush text) : indentation (indent level text) = 4 * level := by
  rw [indentation, toList_indent, List.takeWhile_append_of_pos beq_space_of_mem_replicate,
    h.takeWhile_toList, List.append_nil, List.length_replicate]

theorem unindented_indent (h : Flush text) : unindented (indent level text) = text := by
  rw [unindented, toList_indent, List.dropWhile_append_of_pos beq_space_of_mem_replicate,
    h.dropWhile_toList, String.ofList_toList]

end Flush

end Expr

end SearchFilter
