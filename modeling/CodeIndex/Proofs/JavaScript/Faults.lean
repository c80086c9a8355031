import CodeIndex.Proofs.JavaScript.Gap
import CodeIndex.Proofs.Parsing.Flags
import CodeIndex.Proofs.Syntax.Cursor

/-! What parsing says of flaws.  The tree of a text in the language has none, and the place that is
reported for any other text is that of the first flaw in the tree that is found for it. -/

namespace CodeIndex.JavaScript

open CodeIndex.Parsing CodeIndex.Syntax CodeIndex.Syntax.Tree

theorem upward_sound : Upward (¬HasFlaw ·) := by
  intro kind start stop cs h
  rw [branch, hasFlaw_node]
  rintro (hflaw | ⟨t, ht, hflaw⟩)
  · exact hflaw rfl
  · exact h t ht hflaw

theorem not_hasFlaw_of_parse {text : List Char} {tree : Tree} (h : parse text = .ok tree) :
    ¬tree.HasFlaw := by
  have hsound : (Parsing.parse language text).Carries (¬HasFlaw ·) :=
    carries_parse upward_sound text
  rw [parse_eq] at h
  dsimp only at h
  split at h
  · next found hbest =>
    cases h
    obtain ⟨top, htop, hhead⟩ := Option.bind_eq_some_iff.1 hbest
    exact hsound.best top htop tree (List.mem_of_head? hhead)
  · cases h

/-- The search for a flaw finds the first one in preorder. -/
theorem flawOffset_eq {tree : Tree} (h : tree.Flagged) :
    flawOffset tree = ((tree.preorder.find? (·.flaw != .sound)).getD tree.label).start := by
  have hfirst : (Cursor.root tree).firstFlaw?.map Cursor.label =
      tree.preorder.find? (·.flaw != .sound) := by
    rw [Cursor.firstFlaw_eq_find (Cursor.tells_root h), Cursor.onward_root,
      ← Cursor.map_label_places [] tree, List.find?_map]
    rfl
  rw [flawOffset, ← hfirst]
  exact congrArg Label.start (Option.getD_map Cursor.label (.root tree) _).symm

/-- Stated of the function, as for `parse_eq`. -/
theorem faultOffset_eq :
    faultOffset = fun text => ((flawedTree? language text).map flawOffset).getD 0 := rfl

/-- The tree of a text in the language has no flaw.  For any other text the place is reported at
which the first flaw stands, in preorder, of the tree that is found for it. -/
theorem parse_reports_first_flaw (text : List Char) :
    (∀ tree, parse text = .ok tree → ¬tree.HasFlaw) ∧
    ∀ place, parse text = .error place → ∀ tree, flawedTree? language text = some tree →
      place = .of text ((tree.preorder.find? (·.flaw != .sound)).getD tree.label).start := by
  refine ⟨fun tree => not_hasFlaw_of_parse, fun place hplace tree htree => ?_⟩
  rw [parse_eq] at hplace
  dsimp only at hplace
  split at hplace
  · cases hplace
  · cases hplace
    simp only [faultOffset_eq, htree, Option.map_some, Option.getD_some,
      flawOffset_eq (flagged_of_flawedTree? htree)]

end CodeIndex.JavaScript
