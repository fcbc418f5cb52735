import SearchFilter.Proofs.Expr.DeMorgan
import SearchFilter.Proofs.Expr.Depth
import SearchFilter.Proofs.Expr.FirstFault

/-!
# Chains

Filters that are joined one after another with one connective nest to the left: the text begins with
all the brackets that the later joins open, and each operand but the first is followed by the
bracket that closes it. A fold starts at the empty filter, which the first join drops. Every further
join puts one more node above all that came before, so an induction over the operands has to leave
the filter so far open. Negating a chain negates its operands one by one, by De Morgan's laws.
-/

namespace SearchFilter

/-- The text of a chain with these texts of operands. -/
def chainText (op : Connective) (first : String) (rest : List String) : String :=
  String.ofList (List.replicate rest.length '(') ++ first ++
    String.join (rest.map fun text => ") " ++ op.token ++ " (" ++ text ++ ")")

theorem chainText_nil (op : Connective) (first : String) : chainText op first [] = first := by
  simp [chainText]

theorem chainText_cons (op : Connective) (first next : String) (rest : List String) :
    chainText op first (next :: rest) =
      chainText op ("(" ++ first ++ ") " ++ op.token ++ " (" ++ next ++ ")") rest := by
  apply String.toList_inj.mp
  simp [chainText, List.replicate_succ']

namespace Expr

theorem render_node {op : Connective} {left right : Expr} {leftText rightText : String}
    (hleft : left.render = .ok leftText) (hright : right.render = .ok rightText) :
    (node false op left right).render =
      .ok ("(" ++ leftText ++ ") " ++ op.token ++ " (" ++ rightText ++ ")") := by
  rw [render_eq] at hleft hright ⊢
  obtain ⟨leftTree, hleftTree, rfl⟩ := map_eq_ok_iff.mp hleft
  obtain ⟨rightTree, hrightTree, rfl⟩ := map_eq_ok_iff.mp hright
  rw [treeFrom, Bool.xor_false, hleftTree, hrightTree]
  rfl

theorem render_foldl (op : Connective) {q : Expr} {rest : List Expr} {text : String}
    {texts : List String} (hq : q.isEmpty = false) (hrest : ∀ next ∈ rest, next.isEmpty = false)
    (htext : q.render = .ok text) (htexts : rest.mapM render = .ok texts) :
    (rest.foldl (combine op) q).render = .ok (chainText op text texts) := by
  induction rest generalizing q text texts with
  | nil =>
      obtain rfl : texts = [] := (Except.ok.inj htexts).symm
      rw [List.foldl_nil, chainText_nil, htext]
  | cons next rest ih =>
      obtain ⟨nextText, restTexts, hnextText, hrestTexts, rfl⟩ := mapM_cons_eq_ok_iff.mp htexts
      rw [List.forall_mem_cons] at hrest
      -- The node over the filter so far and the next one takes the place of the filter so far.
      rw [List.foldl_cons, combine_of_nonempty hq hrest.1, chainText_cons]
      exact ih rfl hrest.2 (render_node htext hnextText) hrestTexts

/-- The empty filter that a fold starts at is gone after the first join. -/
theorem foldl_combine_empty (op : Connective) (negated : Bool) {q : Expr} (rest : List Expr)
    (hq : q.isEmpty = false) :
    (q :: rest).foldl (combine op) (leaf negated []) = rest.foldl (combine op) q := by
  have hstart : (leaf negated []).isEmpty = true := rfl
  rw [List.foldl_cons, combine_of_empty_left hstart hq]

theorem depth_foldl (op : Connective) {q : Expr} {rest : List Expr} (hq : q.isEmpty = false)
    (hrest : ∀ next ∈ rest, next.isEmpty = false) :
    (rest.foldl (combine op) q).depth =
      (rest.mapIdx fun i next => next.depth + (rest.length - i)).foldr max
        (q.depth + rest.length) := by
  induction rest generalizing q with
  | nil => rfl
  | cons next rest ih =>
      rw [List.forall_mem_cons] at hrest
      have hdepth : (node false op q next).depth + rest.length =
          max (q.depth + (rest.length + 1)) (next.depth + (rest.length + 1)) := by
        rw [depth_node]
        omega
      rw [List.foldl_cons, combine_of_nonempty hq hrest.1, ih rfl hrest.2, hdepth, List.foldr_assoc,
        List.mapIdx_cons, List.foldr_cons, List.length_cons, Nat.sub_zero, max_comm]
      simp only [Nat.add_sub_add_right]

theorem alike_negate_foldl (op : Connective) (start : Expr) (qs : List Expr) :
    Alike (qs.foldl (combine op) start).negate
      ((qs.map negate).foldl (combine op.dual) start.negate) := by
  induction qs using List.reverseRecOn with
  | nil => exact rfl
  | append_singleton qs q ih =>
      rw [List.map_append, List.foldl_append, List.foldl_append]
      exact (alike_deMorgan op _ q).trans (ih.combine op.dual rfl)

/-! ### Faults of negated operands -/

theorem faultOf_render_negate (q : Expr) : faultOf q.negate.render = faultOf q.render := by
  rw [faultOf_render, faultOf_render, entries_negate]

theorem exists_mapM_render_negate {qs : List Expr} {texts : List String}
    (h : qs.mapM render = .ok texts) : ∃ negated, (qs.map negate).mapM render = .ok negated := by
  have hfault : faultOf (qs.mapM render) = none := by rw [h, faultOf_ok]
  rw [← faultOf_eq_none_iff, faultOf_mapM, List.findSome?_map]
  rw [faultOf_mapM] at hfault
  simpa only [Function.comp_def, faultOf_render_negate] using hfault

/-- **The closed form of a chain.** Filters folded with one connective, none of them empty, are
written as a chain of their texts. The first one stands as deep as there are others, and every other
one as deep as the chain goes on from it. The negated chain is the chain of the negated filters with
the dual connective. -/
theorem chain_has_closed_form (op : Connective) (negated : Bool) {first : Expr} {rest : List Expr}
    {text : String} {texts : List String} (hnonempty : ∀ q ∈ first :: rest, q.isEmpty = false)
    (hfirst : first.render = .ok text) (hrest : rest.mapM render = .ok texts) :
    let chain := (first :: rest).foldl (combine op) (leaf negated [])
    chain.render = .ok (chainText op text texts) ∧
    chain.depth = (rest.mapIdx fun i q => q.depth + (rest.length - i)).foldr max
      (first.depth + rest.length) ∧
    ∃ negatedText negatedTexts, first.negate.render = .ok negatedText ∧
      (rest.map negate).mapM render = .ok negatedTexts ∧
      chain.negate.render = .ok (chainText op.dual negatedText negatedTexts) := by
  intro chain
  rw [List.forall_mem_cons] at hnonempty
  obtain ⟨hfirstNonempty, hrestNonempty⟩ := hnonempty
  have hchain : chain = rest.foldl (combine op) first :=
    foldl_combine_empty op negated rest hfirstNonempty
  refine ⟨?_, ?_, ?_⟩
  · rw [hchain]
    exact render_foldl op hfirstNonempty hrestNonempty hfirst hrest
  · rw [hchain]
    exact depth_foldl op hfirstNonempty hrestNonempty
  · have halike : Alike chain.negate ((rest.map negate).foldl (combine op.dual) first.negate) := by
      rw [hchain]
      exact alike_negate_foldl op first rest
    obtain ⟨negatedText, hnegatedText⟩ : ∃ negatedText, first.negate.render = .ok negatedText := by
      rw [← faultOf_eq_none_iff, faultOf_render_negate, hfirst, faultOf_ok]
    obtain ⟨negatedTexts, hnegatedTexts⟩ := exists_mapM_render_negate hrest
    refine ⟨negatedText, negatedTexts, hnegatedText, hnegatedTexts, ?_⟩
    rw [halike.sameViews.render]
    apply render_foldl op.dual _ _ hnegatedText hnegatedTexts
    · rw [isEmpty_negate]
      exact hfirstNonempty
    · simpa only [List.forall_mem_map, isEmpty_negate] using hrestNonempty

theorem chain_has_closed_form_nested :
    let first := single "a" (.scalar (.string "x"))
    let rest := [((absent "b").or (present "c")).negate, present "d"]
    let texts := ["(b EXISTS) AND (c NOT EXISTS)", "d EXISTS"]
    let chain := (first :: rest).foldl Expr.or empty.negate
    ((∀ q ∈ first :: rest, q.isEmpty = false) ∧ first.render = .ok "a = x" ∧
      rest.mapM render = .ok texts) ∧
    chain.render = .ok "((a = x) OR ((b EXISTS) AND (c NOT EXISTS))) OR (d EXISTS)" ∧
    chain.depth = 3 ∧
    chain.negate.render =
      .ok "((a != x) AND ((b NOT EXISTS) OR (c EXISTS))) AND (d NOT EXISTS)" := by
  intro first rest texts chain
  have hnonempty : ∀ q ∈ first :: rest, q.isEmpty = false := by decide
  have hfirst : first.render = .ok "a = x" := by cbv
  have hrest : rest.mapM render = .ok texts := by cbv
  obtain ⟨htext, hdepth, negatedText, negatedTexts, hnegated, hnegatedRest, hnegatedText⟩ :=
    chain_has_closed_form .or true hnonempty hfirst hrest
  have hfirst' : first.negate.render = .ok "a != x" := by cbv
  have hrest' : (rest.map negate).mapM render =
      .ok ["(b NOT EXISTS) OR (c EXISTS)", "d NOT EXISTS"] := by cbv
  obtain rfl := Except.ok.inj (hnegated.symm.trans hfirst')
  obtain rfl := Except.ok.inj (hnegatedRest.symm.trans hrest')
  refine ⟨⟨hnonempty, hfirst, hrest⟩, htext.trans ?_, hdepth.trans ?_, hnegatedText.trans ?_⟩
  · cbv
  · cbv
  · cbv

end Expr

end SearchFilter
