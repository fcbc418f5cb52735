import SearchFilter.Proofs.Expr.LeafText
import SearchFilter.Proofs.Expr.Readability
import SearchFilter.Proofs.Text.Lines

/-!
# The indented text and the text on one line

The text of a filter on several lines has a line for every leaf, and five lines for every node: two
brackets around each operand and the connective in the middle. A line is indented by as many levels
as there are nodes above what it belongs to. Take away that indentation and the line breaks, put a
space on either side of each connective, and what is left is the text on one line. No leaf can be
taken for a connective on the way, since a condition is never written without a space in it.
-/

namespace SearchFilter

/-- The white space of Unicode. -/
def isBlank (c : Char) : Bool :=
  (0x9 ≤ c.toNat && c.toNat ≤ 0xD) || (0x2000 ≤ c.toNat && c.toNat ≤ 0x200A) ||
    [0x20, 0x85, 0xA0, 0x1680, 0x2028, 0x2029, 0x202F, 0x205F, 0x3000].contains c.toNat

/-- The characters of a text that are not white space. -/
def visible (text : String) : List Char :=
  text.toList.filter fun c => !isBlank c

/-- A line of the indented text without its indentation. -/
structure Line where
  /-- The place of the leaf or group that the line belongs to. -/
  place : List Side
  content : String
  deriving DecidableEq, Repr

namespace Line

/-- The line as part of a larger tree, in which it stands further down. -/
def below (side : Side) (line : Line) : Line :=
  { line with place := side :: line.place }

/-- The line in a text that is indented by `level` itself. -/
def indented (level : Nat) (line : Line) : String :=
  Expr.indent (level + line.place.length) line.content

theorem map_indented_below (level : Nat) (side : Side) (lines : List Line) :
    (lines.map (below side)).map (indented level) = lines.map (indented (level + 1)) := by
  rw [List.map_map]
  refine List.map_congr_left fun line _ => ?_
  rw [Function.comp_apply, indented, indented, below, List.length_cons, Nat.add_right_comm,
    Nat.add_assoc]

/-- What stands on the lines at a place, from top to bottom. -/
def contentsAt (place : List Side) : List Line → List String
  | [] => []
  | line :: rest =>
    if line.place = place then line.content :: contentsAt place rest else contentsAt place rest

theorem contentsAt_append (place : List Side) (lines lines' : List Line) :
    contentsAt place (lines ++ lines') = contentsAt place lines ++ contentsAt place lines' := by
  induction lines with
  | nil => rfl
  | cons line rest ih =>
      rw [List.cons_append, contentsAt, contentsAt, ih]
      split_ifs <;> rfl

theorem contentsAt_nil_below (side : Side) (lines : List Line) :
    contentsAt [] (lines.map (below side)) = [] := by
  induction lines with
  | nil => rfl
  | cons line rest ih => simp [contentsAt, below, ih]

theorem contentsAt_cons_below (side side' : Side) (path : List Side) (lines : List Line) :
    contentsAt (side :: path) (lines.map (below side')) =
      if side' = side then contentsAt path lines else [] := by
  induction lines with
  | nil => simp [contentsAt]
  | cons line rest ih =>
      rw [List.map_cons, contentsAt, contentsAt, ih, below]
      by_cases hside : side' = side <;> simp [hside]

end Line

namespace FilterTree

open Line

/-- The lines of the indented text from top to bottom. -/
def lines : FilterTree → List Line
  | leaf text => [⟨[], text⟩]
  | group op left right =>
    ⟨[], "("⟩ :: left.lines.map (below .left) ++
      ⟨[], ")"⟩ :: ⟨[], op.token⟩ :: ⟨[], "("⟩ :: right.lines.map (below .right) ++ [⟨[], ")"⟩]

/-- The lines that belong to the root of a tree and to nothing below it. -/
def ownLines : FilterTree → List String
  | leaf text => [text]
  | group op _ _ => ["(", ")", op.token, "(", ")"]

theorem lines_ne_nil (tree : FilterTree) : tree.lines ≠ [] := by
  cases tree <;> simp [lines]

theorem map_indented_group (level : Nat) (op : Connective) (left right : FilterTree) :
    (group op left right).lines.map (indented level) =
      Expr.indent level "(" :: left.lines.map (indented (level + 1)) ++
        Expr.indent level ")" :: Expr.indent level op.token :: Expr.indent level "(" ::
          right.lines.map (indented (level + 1)) ++ [Expr.indent level ")"] := by
  simp only [lines, List.map_append, List.map_cons, List.map_nil, map_indented_below, indented,
    List.length_nil, Nat.add_zero]

theorem contentsAt_lines (tree : FilterTree) (place : List Side) :
    contentsAt place tree.lines = ((tree.at? place).map ownLines).getD [] := by
  induction tree generalizing place with
  | leaf text => cases place <;> simp [lines, contentsAt, at?, ownLines]
  | group op left right ihLeft ihRight =>
      cases place with
      | nil => simp [lines, at?, ownLines, contentsAt_append, contentsAt, contentsAt_nil_below]
      | cons side path =>
          cases side <;>
            simp [lines, at?, contentsAt_append, contentsAt, contentsAt_cons_below, ihLeft, ihRight]

end FilterTree

namespace NormalForm

open SearchFilter.Expr Line

theorem emit_prettifyEvent (form : NormalForm) (level : Nat) :
    emit prettifyEvent (form.events level) =
      (fun tree => tree.lines.map (indented level)) <$> form.tree := by
  induction form generalizing level with
  | leaf negate entries =>
      simp [events, emit_cons, emit_nil, prettifyEvent, tree, FilterTree.lines, indented,
        monad_norm]
  | group op left right ihLeft ihRight =>
      calc emit prettifyEvent ((group op left right).events level)
          = (do
              let left ← emit prettifyEvent (left.events (level + 1))
              let right ← emit prettifyEvent (right.events (level + 1))
              return indent level "(" :: left ++ indent level ")" :: indent level op.token ::
                indent level "(" :: right ++ [indent level ")"]) := by
            simp [events, emit_append, emit_cons, emit_nil, prettifyEvent, monad_norm]
        _ = (do
              let left ← (fun tree => tree.lines.map (indented (level + 1))) <$> left.tree
              let right ← (fun tree => tree.lines.map (indented (level + 1))) <$> right.tree
              return indent level "(" :: left ++ indent level ")" :: indent level op.token ::
                indent level "(" :: right ++ [indent level ")"]) := by
            rw [ihLeft, ihRight]
        _ = (fun tree => tree.lines.map (indented level)) <$> (group op left right).tree := by
            simp [tree, FilterTree.map_indented_group, monad_norm]

end NormalForm

namespace Expr

open Line

theorem prettify_eq (q : Expr) :
    q.prettify =
      (fun tree => "\n".intercalate (tree.lines.map (indented 0))) <$> q.treeFrom false := by
  rw [prettify, collect_eq, NormalForm.emit_prettifyEvent, treeFrom_eq, Functor.map_map]

end Expr

/-! ### Without white space -/

theorem visible_append (first second : String) :
    visible (first ++ second) = visible first ++ visible second := by
  rw [visible, String.toList_append, List.filter_append]
  rfl

theorem visible_indent (level : Nat) (line : String) :
    visible (Expr.indent level line) = visible line := by
  have hspaces : (List.replicate (4 * level) ' ').filter (fun c => !isBlank c) = [] := by
    rw [List.filter_eq_nil_iff]
    intro c hc
    rw [List.eq_of_mem_replicate hc]
    decide
  rw [visible, Expr.toList_indent, List.filter_append, hspaces, List.nil_append]
  rfl

theorem visible_intercalate (lines : List String) :
    visible ("\n".intercalate lines) = lines.flatMap visible := by
  induction lines with
  | nil => rfl
  | cons line rest ih =>
      cases rest with
      | nil => simp [visible]
      | cons next rest =>
          rw [String.intercalate_cons_cons, visible_append, visible_append, ih, List.flatMap_cons]
          have hbreak : visible "\n" = [] := by decide
          rw [hbreak, List.append_nil]
          rfl

namespace FilterTree

open Line

theorem visible_flatten (tree : FilterTree) :
    visible tree.flatten = tree.lines.flatMap fun line => visible line.content := by
  induction tree with
  | leaf text => simp [flatten, lines]
  | group op left right ihLeft ihRight =>
      have hleft : visible ") " = visible ")" := by decide
      have hright : visible " (" = visible "(" := by decide
      simp [flatten, lines, visible_append, ihLeft, ihRight, List.flatMap_map, below, hleft, hright]

end FilterTree

/-! ### Without indentation and line breaks -/

/-- What a line of the indented text, less its indentation, is in the text on one line. -/
def onOneLine (line : String) : String :=
  if line = "AND" ∨ line = "OR" then " " ++ line ++ " " else line

/-- The lines of a text put one after the other, without their indentation and with spaces around
the connectives. -/
def collapse (text : String) : String :=
  String.join ((textLines text).map fun line => onOneLine (unindented line))

theorem Clause.space_mem_intercalate (clause : Clause) (rest : List Clause) :
    ' ' ∈ separator.intercalate ((clause :: rest).map text) := by
  have hclause : ' ' ∈ clause.text := by simp [text]
  cases rest with
  | nil => simpa using hclause
  | cons next rest =>
      rw [List.map_cons, List.map_cons, List.intercalate_cons_cons, List.append_assoc]
      exact List.mem_append_left _ hclause

theorem onOneLine_of_renderLeaf {entries : List Entry} {negate : Bool} {text : String}
    (htext : Expr.renderLeaf entries negate = .ok text) : onOneLine text = text := by
  obtain ⟨conditions, hparse, -⟩ := bind_eq_ok_iff.mp htext
  have hchars := Expr.toList_of_renderLeaf hparse htext
  rw [onOneLine, if_neg]
  cases conditions with
  | nil =>
      obtain rfl : text = "" := by simpa using hchars
      decide
  | cons c rest =>
      -- There is a space around the operator of a condition, and none in a connective.
      have hspace : ' ' ∈ text.toList := by
        rw [hchars]
        exact Clause.space_mem_intercalate _ _
      rintro (rfl | rfl)
      · exact absurd hspace (by decide)
      · exact absurd hspace (by decide)

namespace FilterTree

open Line

theorem join_map_onOneLine {tree : FilterTree}
    (h : tree.Leaves fun text => onOneLine text = text) :
    String.join (tree.lines.map fun line => onOneLine line.content) = tree.flatten := by
  induction tree with
  | leaf text =>
      have htext : onOneLine text = text := h
      simp [lines, flatten, htext]
  | group op left right ihLeft ihRight =>
      have hopening : onOneLine "(" = "(" := by decide
      have hclosing : onOneLine ")" = ")" := by decide
      have hop : onOneLine op.token = " " ++ op.token ++ " " := by cases op <;> decide
      have hleft (rest : String) : ")" ++ (" " ++ rest) = ") " ++ rest := by
        rw [← String.append_assoc]
        rfl
      have hright (rest : String) : " " ++ ("(" ++ rest) = " (" ++ rest := by
        rw [← String.append_assoc]
        rfl
      simp [lines, flatten, below, Function.comp_def, hopening, hclosing, hop, ← ihLeft h.1,
        ← ihRight h.2, hleft, hright, String.append_assoc]

theorem flush_content {tree : FilterTree} (h : tree.Leaves Flush) :
    ∀ line ∈ tree.lines, Flush line.content := by
  induction tree with
  | leaf text => exact List.forall_mem_singleton.mpr h
  | group op left right ihLeft ihRight =>
      have hopening : Flush "(" := by decide
      have hclosing : Flush ")" := by decide
      have hop : Flush op.token := by cases op <;> decide
      simp only [lines, below, List.forall_mem_append, List.forall_mem_cons, List.forall_mem_map]
      exact ⟨⟨⟨hopening, ihLeft h.1⟩, hclosing, hop, hopening, ihRight h.2⟩, hclosing,
        List.forall_mem_nil _⟩

theorem textLines_of_flush {tree : FilterTree} (h : tree.Leaves Flush) :
    textLines ("\n".intercalate (tree.lines.map (indented 0))) = tree.lines.map (indented 0) := by
  apply textLines_intercalate
  · simpa using tree.lines_ne_nil
  · rw [List.forall_mem_map]
    exact fun line hline => Expr.not_mem_toList_indent (flush_content h line hline).1

theorem read_textLines {tree : FilterTree} (h : tree.Leaves Flush) :
    (textLines ("\n".intercalate (tree.lines.map (indented 0)))).map
        (fun line => (indentation line, unindented line)) =
      tree.lines.map fun line => (4 * line.place.length, line.content) := by
  rw [textLines_of_flush h, List.map_map]
  refine List.map_congr_left fun line hline => ?_
  have hcontent := flush_content h line hline
  rw [Function.comp_apply, indented, Expr.indentation_indent _ hcontent,
    Expr.unindented_indent _ hcontent, Nat.zero_add]

end FilterTree

namespace Expr

open Line

theorem leaves_onOneLine {q : Expr} {tree : FilterTree} (h : q.treeFrom false = .ok tree) :
    tree.Leaves fun text => onOneLine text = text := by
  rw [← leafTexts_iff h]
  intro entries negate level _ text htext
  exact onOneLine_of_renderLeaf htext

/-- **The indented text collapses.** A filter that has a text has an indented text with the same
visible characters. It has the lines of the filter's tree, each indented by four spaces for every
node above the leaf or node that it belongs to. If the leaves are flush, these lines and their
indentation can be read off the indented text, and so can the text on one line. -/
theorem prettify_collapses_to_render {q : Expr} {text : String} (h : q.render = .ok text) :
    ∃ pretty tree, q.prettify = .ok pretty ∧ q.renderTree q.depth = .ok tree ∧
      visible pretty = visible text ∧
      pretty = "\n".intercalate (tree.lines.map (indented 0)) ∧
      (∀ place, Mirrored (q.negations place).bodd (q.at? place) (tree.at? place) ∧
        contentsAt place tree.lines = ((tree.at? place).map FilterTree.ownLines).getD []) ∧
      (q.LeafTexts Flush → collapse pretty = text ∧
        (textLines pretty).map (fun line => (indentation line, unindented line)) =
          tree.lines.map fun line => (4 * line.place.length, line.content)) := by
  rw [render_eq] at h
  obtain ⟨tree, htree, rfl⟩ := map_eq_ok_iff.mp h
  refine ⟨_, tree, ?_, ?_, ?_, rfl, ?_, ?_⟩
  · rw [prettify_eq, htree, map_ok]
  · rw [renderTree, if_neg (Nat.lt_irrefl q.depth), htree]
  · rw [visible_intercalate, FilterTree.visible_flatten, List.flatMap_map]
    simp only [indented, visible_indent]
  · intro place
    have hmirrored := mirrored_of_treeFrom htree place
    rw [Bool.false_xor] at hmirrored
    exact ⟨hmirrored, tree.contentsAt_lines place⟩
  · intro hleaves
    have hread := FilterTree.read_textLines ((leafTexts_iff htree).mp hleaves)
    refine ⟨?_, hread⟩
    calc collapse ("\n".intercalate (tree.lines.map (indented 0)))
        = String.join ((tree.lines.map fun line => (4 * line.place.length, line.content)).map
            fun read => onOneLine read.2) := by
          rw [← hread, List.map_map]
          rfl
      _ = tree.flatten := by
          rw [List.map_map]
          exact FilterTree.join_map_onOneLine (leaves_onOneLine htree)

theorem prettify_collapses_to_render_spelled_connectives :
    let q := ((single "kind" (.scalar (.string "AND"))).and
      ((single "title" (.scalar (.string "cats  OR dogs"))).or (present "stock")).negate).negate
    let text := "(kind != AND) OR ((title = \"cats  OR dogs\") OR (stock EXISTS))"
    let pretty := "(\n    kind != AND\n)\nOR\n(\n    (\n        title = \"cats  OR dogs\"\n" ++
      "    )\n    OR\n    (\n        stock EXISTS\n    )\n)"
    (q.render = .ok text ∧ q.LeafTexts Flush) ∧
      q.prettify = .ok pretty ∧ visible pretty = visible text ∧ collapse pretty = text := by
  intro q text pretty
  have htext : q.render = .ok text := by cbv
  have hpretty : q.prettify = .ok pretty := by cbv
  have hleaves : q.LeafTexts Flush := by
    have htree : q.treeFrom false = .ok (.group .or (.leaf "kind != AND")
        (.group .or (.leaf "title = \"cats  OR dogs\"") (.leaf "stock EXISTS"))) := by cbv
    rw [leafTexts_iff htree]
    have hkind : Flush "kind != AND" := by decide
    have htitle : Flush "title = \"cats  OR dogs\"" := by decide
    have hstock : Flush "stock EXISTS" := by decide
    exact ⟨hkind, htitle, hstock⟩
  obtain ⟨pretty', tree, hpretty', -, hvisible, -, -, hcollapse⟩ :=
    prettify_collapses_to_render htext
  obtain rfl := Except.ok.inj (hpretty.symm.trans hpretty')
  exact ⟨⟨htext, hleaves⟩, hpretty, hvisible, (hcollapse hleaves).1⟩

end Expr

end SearchFilter
