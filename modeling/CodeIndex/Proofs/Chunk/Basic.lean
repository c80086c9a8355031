import CodeIndex.Proofs.Chunk.Merging
import CodeIndex.Proofs.Chunk.Structural

/-! The fragments of a file lose none of its text, and only a single line makes one that is much
larger than it should be. -/

namespace CodeIndex.Chunk

open CodeIndex.Syntax

variable {o : Options} {source : List Char} {tree : Tree} {line : List Char} {f : Fragment}

theorem number_eq (fs : List Fragment) :
    number fs = fs.zipIdx.map fun x => { x.1 with id := x.2 } := rfl

theorem contents_number (fs : List Fragment) :
    (number fs).map (·.content) = fs.map (·.content) := by
  have hcontent : (·.content) ∘ (fun x : Fragment × Nat => { x.1 with id := x.2 }) =
      (·.content) ∘ Prod.fst := rfl
  rw [number_eq, List.map_map, hcontent, ← List.map_map, List.zipIdx_map_fst]

/-! ### Limits -/

/-- The fragments of a source, with six fifths of the size and one and a half times the size as the
limits. -/
def chunked (o : Options) (source : List Char) (tree : Tree) : List Fragment :=
  number (mergeBelow (o.maxSize * 6 / 5) ((fragments source tree).flatMap (pieces o)))

theorem mapM_split_of_lt (h : o.maxSize * 3 < sizeBound) (fs : List Fragment) :
    fs.mapM (split o) = .ok (fs.map (pieces o)) := by
  induction fs with
  | nil => rfl
  | cons f rest ih =>
    rw [List.mapM_cons, split_eq h, ih]
    rfl

/-- Splitting can break off for a limit only. -/
theorem mapM_split_cases (o : Options) (fs : List Fragment) :
    (∃ ps, fs.mapM (split o) = .ok ps) ∨ fs.mapM (split o) = .error .overflow := by
  by_cases hsize : o.maxSize * 3 < sizeBound
  · exact .inl ⟨_, mapM_split_of_lt hsize fs⟩
  · have hlimit := foldLimit_of_le (Nat.not_lt.1 hsize)
    induction fs with
    | nil => exact .inl ⟨[], rfl⟩
    | cons f rest ih =>
      rw [List.mapM_cons, split, hlimit]
      split
      · rcases ih with ⟨ps, hps⟩ | hrest
        · exact .inl ⟨[f] :: ps, by rw [hps]; rfl⟩
        · exact .inr (by rw [hrest]; rfl)
      · exact .inr rfl

theorem chunk_of_lt (h : o.maxSize * 6 < sizeBound) (source : List Char) (tree : Tree) :
    chunk o source tree = .ok (chunked o source tree) := by
  rw [chunk, mapM_split_of_lt (by omega), chunked, List.flatMap_def]
  show (merge o _ >>= fun fs => pure (number fs)) = _
  rw [merge_of_lt h]
  rfl

/-- Chunking breaks off even for a source without fragments if the limit for merging does not fit. -/
theorem chunk_of_le (h : sizeBound ≤ o.maxSize * 6) (source : List Char) (tree : Tree) :
    chunk o source tree = .error .overflow := by
  rw [chunk]
  rcases mapM_split_cases o (fragments source tree) with ⟨ps, hps⟩ | hsplit
  · rw [hps]
    show (merge o _ >>= fun fs => pure (number fs)) = _
    rw [merge_of_le h]
    rfl
  · rw [hsplit]
    rfl

/-- What holds of the fragments with the limits as they should be holds of what chunking gives, unless
it breaks off. -/
theorem chunk_cases {P : List Fragment → Prop} (h : P (chunked o source tree)) :
    (sizeBound ≤ o.maxSize * 6 ∧ chunk o source tree = .error .overflow) ∨
      ∃ fs, chunk o source tree = .ok fs ∧ P fs := by
  by_cases hsize : o.maxSize * 6 < sizeBound
  · exact .inr ⟨_, chunk_of_lt hsize source tree, h⟩
  · exact .inl ⟨Nat.not_lt.1 hsize, chunk_of_le (Nat.not_lt.1 hsize) source tree⟩

/-! ### Lines and sizes -/

/-- A line of a fragment that is not empty outlasts splitting and merging. -/
theorem exists_chunked_of_mem_fragments (hf : f ∈ fragments source tree)
    (hline : line ∈ Text.splitLines f.content) (hne : line ≠ []) :
    ∃ g ∈ chunked o source tree, line ∈ Text.splitLines g.content := by
  obtain ⟨p, hp, hpiece⟩ := pieces_covers (o := o) hline hne
  have hpieces : p ∈ (fragments source tree).flatMap (pieces o) :=
    List.mem_flatMap.2 ⟨f, hf, hp⟩
  obtain ⟨m, hm, hmerged⟩ := mergeBelow_covers hpieces hpiece
  have hcontent : m.content ∈ (chunked o source tree).map (·.content) := by
    rw [chunked, contents_number]
    exact List.mem_map.2 ⟨m, hm, rfl⟩
  obtain ⟨g, hg, hsame⟩ := List.mem_map.1 hcontent
  refine ⟨g, hg, ?_⟩
  rw [hsame]
  exact hmerged

theorem fragments_of_structural (hne : structural source (matches_ source tree) ≠ []) :
    fragments source tree = structural source (matches_ source tree) := by
  unfold fragments
  split
  next hnil => exact absurd hnil hne
  next => rfl

theorem fragments_of_nil (hnil : structural source (matches_ source tree) = [])
    (hblank : Text.isAllBlank source = false) :
    fragments source tree = [wholeFile source tree] := by
  rw [fragments, hnil, hblank]
  rfl

/-- Every classified node with enough text has each line of its text in a line of some fragment.
Where there is no such node, each line of the file is a line of some fragment.  Only a size whose
product with six does not fit breaks chunking off. -/
theorem chunk_covers (o : Options) (source : List Char) (tree : Tree) :
    (sizeBound ≤ o.maxSize * 6 ∧ chunk o source tree = .error .overflow) ∨
    ∃ fs, chunk o source tree = .ok fs ∧
      (∀ l ∈ tree.preorder, l.named = true → (classify l.kind).isSome = true →
        minSize ≤ (Text.trim (slice source l.start l.stop)).length →
        ∀ line ∈ Text.splitLines (slice source l.start l.stop), line ≠ [] →
          ∃ f ∈ fs, ∃ whole ∈ Text.splitLines f.content, line <:+: whole) ∧
      (structural source (matches_ source tree) = [] → Text.isAllBlank source = false →
        ∀ line ∈ Text.splitLines source, line ≠ [] →
          ∃ f ∈ fs, line ∈ Text.splitLines f.content) := by
  refine chunk_cases ⟨?_, ?_⟩
  · intro l hl hnamed hclass hsize line hline hne
    obtain ⟨m, hm, hstart, hstop⟩ := exists_match hl hnamed hclass
    rw [← hstart, ← hstop] at hsize hline
    obtain ⟨f, hf, hinfix⟩ := exists_structural hm hsize
    have hfragment : f ∈ fragments source tree := by
      rw [fragments_of_structural (List.ne_nil_of_mem hf)]
      exact hf
    -- The node may begin or end within a line; that line is what lasts.
    obtain ⟨whole, hwhole, hpart⟩ := Text.exists_line_of_isInfix
      ((Text.isInfix_of_mem_splitLines hline).trans hinfix) (Text.not_mem_of_mem_splitLines hline)
    have hwholeNe : whole ≠ [] := by
      rintro rfl
      exact hne (List.infix_nil.1 hpart)
    obtain ⟨g, hg, hmem⟩ := exists_chunked_of_mem_fragments hfragment hwhole hwholeNe
    exact ⟨g, hg, whole, hmem, hpart⟩
  · intro hnil hblank line hline hne
    have hwhole : wholeFile source tree ∈ fragments source tree := by
      rw [fragments_of_nil hnil hblank]
      exact List.mem_singleton_self _
    exact exists_chunked_of_mem_fragments hwhole hline hne

/-- A file of one export. -/
def exportSource : List Char :=
  "export const limits =\n  [1, 2, 3, 5, 8, 13, 21, 34, 55, 89];\n".toList

def exportTree : Tree :=
  .branch "program" 0 61 [.branch "export_statement" 0 60 [.branch "lexical_declaration" 7 60 []]]

/-- A file of comments, which have no class. -/
def commentSource : List Char := "// a\n// b\n".toList

def commentTree : Tree :=
  .branch "program" 0 10 [.branch "comment" 0 4 [], .branch "comment" 5 9 []]

theorem structural_comment : structural commentSource (matches_ commentSource commentTree) = [] := by
  have hmatches : commentTree.preorder.filterMap (Match.ofLabel commentSource) = [] := by decide
  rw [matches_eq_filterMap, hmatches, structural, List.mergeSort_nil]
  rfl

theorem not_overflow_of_default {P : Prop} :
    ¬(sizeBound ≤ Options.maxSize {} * 6 ∧ P) := fun h => absurd h.1 (by decide)

theorem chunk_covers_export_comment :
    (∃ fs, chunk {} exportSource exportTree = .ok fs ∧
      ∃ f ∈ fs, ∃ whole ∈ Text.splitLines f.content,
        "  [1, 2, 3, 5, 8, 13, 21, 34, 55, 89];".toList <:+: whole) ∧
    ∃ fs, chunk {} commentSource commentTree = .ok fs ∧
      ∃ f ∈ fs, "// b".toList ∈ Text.splitLines f.content := by
  constructor
  · obtain ⟨fs, hchunk, hnodes, -⟩ :=
      (chunk_covers {} exportSource exportTree).resolve_left not_overflow_of_default
    refine ⟨fs, hchunk, ?_⟩
    apply hnodes ⟨"export_statement", true, .sound, false, 0, 60⟩
    all_goals decide
  · obtain ⟨fs, hchunk, -, hlines⟩ :=
      (chunk_covers {} commentSource commentTree).resolve_left not_overflow_of_default
    refine ⟨fs, hchunk, ?_⟩
    apply hlines structural_comment
    all_goals decide

/-- A fragment of more than one line stays below one and a half times the size. -/
theorem chunk_bounded (o : Options) (source : List Char) (tree : Tree) :
    (sizeBound ≤ o.maxSize * 6 ∧ chunk o source tree = .error .overflow) ∨
    ∃ fs, chunk o source tree = .ok fs ∧ ∀ f ∈ fs, f.content.length ≤ o.maxSize ∨
      f.content.length < o.maxSize * 3 / 2 ∨ '\n' ∉ f.content := by
  refine chunk_cases fun f hf => ?_
  have hmerged : ∀ p ∈ mergeBelow (o.maxSize * 6 / 5) ((fragments source tree).flatMap (pieces o)),
      p.Bounded o := by
    refine mergeBelow_bounded (by omega) fun p hp => ?_
    obtain ⟨whole, -, hpiece⟩ := List.mem_flatMap.1 hp
    exact pieces_bounded hpiece
  have hcontent : f.content ∈ (chunked o source tree).map (·.content) :=
    List.mem_map.2 ⟨f, hf, rfl⟩
  rw [chunked, contents_number] at hcontent
  obtain ⟨p, hp, hsame⟩ := List.mem_map.1 hcontent
  rw [← hsame]
  exact hmerged p hp

/-- The last line goes to the piece before it, which then is larger than the size. -/
theorem chunk_comment : chunk ⟨8, 0⟩ commentSource commentTree =
    .ok [⟨0, "// a\n// b".toList, 1, 2, .code, "program"⟩] := by
  rw [chunk, fragments_of_nil structural_comment (by decide)]
  decide +kernel

theorem chunk_bounded_comment :
    ∃ fs, chunk ⟨8, 0⟩ commentSource commentTree = .ok fs ∧
      fs = [⟨0, "// a\n// b".toList, 1, 2, .code, "program"⟩] ∧
      ∀ f ∈ fs, f.content.length ≤ 8 ∨ f.content.length < 8 * 3 / 2 ∨ '\n' ∉ f.content := by
  obtain ⟨fs, hchunk, hbounded⟩ := (chunk_bounded ⟨8, 0⟩ commentSource commentTree).resolve_left
    fun h => absurd h.1 (by decide)
  exact ⟨fs, hchunk, Except.ok.inj (hchunk.symm.trans chunk_comment), hbounded⟩

end CodeIndex.Chunk
