import CodeIndex.Proofs.Chunk.Structural

/-! The two walks over a tree: the one that collects the classified nodes and the one that looks for
the first flaw.  Both come to the nodes in the order of their addresses. -/

namespace CodeIndex.Chunk

open CodeIndex.Syntax CodeIndex.Syntax.Tree CodeIndex.Syntax.Tree.Cursor

/-- A walk visits each node of a tree once, those above a node and to the left of it before it, and
is over after as many moves, or fewer if it does not enter every node.  The classified nodes are found
in this order.  If every node says truly whether there is a flaw at it or below it, then leaving out
those that say no leaves out no flaw: the first flaw found is the first one of the tree, and none is
found only if there is none. -/
theorem walks_in_preorder (source : List Char) (tree : Tree) :
    ((visited tree).map address).Pairwise (· < ·) ∧
    (∀ p t, tree.at? p = some t ↔ ∃ c ∈ visited tree, c.address = p ∧ c.node = t) ∧
    (∀ enter : Cursor → Bool, ∃ n ≤ (visited tree).length,
      (·.bind fun c => c.advance? (enter c))^[n] (some (root tree)) = none) ∧
    matches_ source tree = (visited tree).filterMap (fun c =>
      if c.label.named then
        (classify c.label.kind).map fun cls =>
          ⟨c.label.start, c.label.stop, Text.lineAt source c.label.start,
            Text.lineAt source c.label.stop, cls, c.label.kind⟩
      else none) ∧
    (tree.Flagged →
      (root tree).firstFlaw? = (visited tree).find? (·.label.flaw != .sound) ∧
      ((root tree).firstFlaw? = none ↔ ∀ p t, tree.at? p = some t → t.label.flaw = .sound)) := by
  rw [visited_eq]
  refine ⟨List.pairwise_map.2 (ascending_places [] tree), at?_iff_of_places tree, ?_, ?_, ?_⟩
  · intro enter
    rw [← onward_root]
    exact exists_iterate_eq_none enter (root tree)
  · rw [matches_eq_filterMap, ← map_label_places [] tree, List.filterMap_map]
    rfl
  · intro hflagged
    have hfirst : (root tree).firstFlaw? = (places [] tree).find? (·.label.flaw != .sound) := by
      rw [firstFlaw_eq_find (tells_root hflagged), onward_root]
    refine ⟨hfirst, ?_⟩
    rw [hfirst, List.find?_eq_none]
    constructor
    · intro hnone p t ht
      obtain ⟨c, hc, -, rfl⟩ := (at?_iff_of_places tree p t).1 ht
      have hsound : c.label.flaw = .sound := by simpa using hnone c hc
      exact hsound
    · intro hsound c hc
      have hnode := hsound c.address c.node ((at?_iff_of_places tree _ _).2 ⟨c, hc, rfl, rfl⟩)
      exact fun hflaw => bne_iff_ne.1 hflaw hnode

/-- A class with a stray character in its body, between two statements, the last of which has no
semicolon. -/
def boxSource : List Char :=
  Text.joinLines ["run(a);".toList, "class Box \x7b # \x7d".toList, "let x = 1".toList]

def boxTree : Tree :=
  .branch "program" 0 33 [
    .branch "expression_statement" 0 7 [],
    .branch "class_declaration" 8 23 [.branch "class_body" 18 23 [
      .node ⟨"ERROR", true, .error, true, 20, 21⟩ []]],
    .branch "lexical_declaration" 24 33 [.node ⟨";", false, .missing, true, 33, 33⟩ []]]

theorem flagged_boxTree : boxTree.Flagged := by
  simp [boxTree, flagged_branch, flagged_node]

/-- The search goes past the first statement and finds the stray character. -/
theorem walks_in_preorder_box :
    boxTree.Flagged ∧
    (visited boxTree).map address = [[], [0], [1], [1, 0], [1, 0, 0], [2], [2, 0]] ∧
    (matches_ boxSource boxTree).map (fun m => (m.kind, m.startLine)) =
      [("expression_statement", 1), ("class_declaration", 2), ("lexical_declaration", 3)] ∧
    (root boxTree).firstFlaw?.map address = some [1, 0, 0] := by
  obtain ⟨-, -, -, hmatches, hflaw⟩ := walks_in_preorder boxSource boxTree
  obtain ⟨hfirst, -⟩ := hflaw flagged_boxTree
  rw [visited_eq] at hmatches hfirst ⊢
  refine ⟨flagged_boxTree, by decide, ?_, ?_⟩
  · rw [hmatches]
    decide +kernel
  · rw [hfirst]
    decide +kernel

end CodeIndex.Chunk
