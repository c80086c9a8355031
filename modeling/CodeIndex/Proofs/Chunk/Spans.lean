import CodeIndex.Proofs.Chunk.Placement

/-! The lines that fragments name.  Every fragment has text and names lines of its source.  Its last
line is the greatest of its pieces, but its first line is that of its first piece, even where another
piece starts further up. -/

namespace CodeIndex.Chunk

variable {o : Options} {source : List Char} {tree : Syntax.Tree} {f p : Fragment} {m : Match}
  {ms : List Match} {g : Group}

/-! ### From the result to the pieces -/

/-- The fragments of a source are runs of the pieces. -/
theorem chunked_eq_runs (o : Options) (source : List Char) (tree : Syntax.Tree) :
    ∃ runs : List Run, chunked o source tree = number (runs.map Run.joined) ∧
      runs.flatMap Run.fragments = (fragments source tree).flatMap (pieces o) ∧
      ∀ r ∈ runs, r.Within (o.maxSize * 6 / 5) := by
  obtain ⟨runs, hmerge, hfragments, hgrown, -⟩ :=
    mergeBelow_eq_runs (o.maxSize * 6 / 5) ((fragments source tree).flatMap (pieces o))
  exact ⟨runs, by rw [chunked, hmerge], hfragments, fun r hr => (hgrown r hr).within⟩

theorem mem_number {fs : List Fragment} (h : f ∈ number fs) :
    ∃ whole ∈ fs, ∃ i, f = { whole with id := i } := by
  obtain ⟨⟨whole, i⟩, hmem, rfl⟩ := List.mem_map.1 h
  exact ⟨whole, List.fst_mem_of_mem_zipIdx hmem, i, rfl⟩

theorem ids_number (fs : List Fragment) : (number fs).map (·.id) = List.range fs.length := by
  have hid : (·.id) ∘ (fun x : Fragment × Nat => { x.1 with id := x.2 }) = Prod.snd := rfl
  rw [number_eq, List.map_map, hid, List.zipIdx_map_snd, List.range_eq_range']

/-- A fragment of a source is a run of pieces, under its number. -/
theorem exists_run_of_mem_chunked (h : f ∈ chunked o source tree) :
    ∃ r : Run, (∀ p ∈ r.fragments, ∃ whole ∈ fragments source tree, p ∈ pieces o whole) ∧
      ∃ i, f = { r.joined with id := i } := by
  obtain ⟨runs, hchunked, hfragments, -⟩ := chunked_eq_runs o source tree
  rw [hchunked] at h
  obtain ⟨whole, hwhole, i, rfl⟩ := mem_number h
  obtain ⟨r, hr, rfl⟩ := List.mem_map.1 hwhole
  refine ⟨r, fun p hp => ?_, i, rfl⟩
  have hpiece : p ∈ runs.flatMap Run.fragments := List.mem_flatMap.2 ⟨r, hr, hp⟩
  rw [hfragments] at hpiece
  exact List.mem_flatMap.1 hpiece

/-! ### All sources -/

theorem fragments_ne_nil (h : Text.isAllBlank source = false) (tree : Syntax.Tree) :
    fragments source tree ≠ [] := by
  by_cases hnil : structural source (matches_ source tree) = []
  · rw [fragments_of_nil hnil h]
    exact List.cons_ne_nil _ _
  · rwa [fragments_of_structural hnil]

theorem chunked_eq_nil_of_blank (h : Text.isAllBlank source = true) (o : Options)
    (tree : Syntax.Tree) : chunked o source tree = [] := by
  rw [chunked, fragments_eq_nil_of_blank h]
  rfl

/-- Something of a source with text is left. -/
theorem chunked_ne_nil (h : Text.isAllBlank source = false) : chunked o source tree ≠ [] := by
  obtain ⟨f, hf⟩ := List.exists_mem_of_ne_nil _ (fragments_ne_nil h tree)
  obtain ⟨line, hline, hne⟩ := Text.exists_line_ne_nil (placed_of_mem_fragments hf).text
  obtain ⟨g, hg, -⟩ := exists_chunked_of_mem_fragments (o := o) hf hline hne
  exact List.ne_nil_of_mem hg

theorem one_le_startLine (h : f.Placed source) : 1 ≤ f.startLine := by
  obtain ⟨before, after, -, hstart⟩ := h.part
  omega

theorem endLine_le_newlines (h : f.Placed source) : f.endLine ≤ 1 + Text.newlines source := by
  obtain ⟨before, after, hsource, hstart⟩ := h.part
  have hend := h.endLine_le
  rw [hsource, Text.newlines_append, Text.newlines_append]
  omega

/-- The lines of a fragment, when those of the pieces are known to be no greater than `last`. -/
theorem span_of_mem_chunked {last : Nat} (hlast : ∀ whole ∈ fragments source tree, whole.endLine ≤ last)
    (h : f ∈ chunked o source tree) :
    f.content ≠ [] ∧ 1 ≤ f.startLine ∧ f.startLine ≤ f.endLine ∧ f.endLine ≤ last := by
  obtain ⟨r, hpieces, i, rfl⟩ := exists_run_of_mem_chunked h
  have hspan : ∀ p ∈ r.fragments, p.content ≠ [] ∧ 1 ≤ p.startLine ∧ p.startLine ≤ p.endLine ∧
      p.endLine ≤ last := by
    intro p hp
    obtain ⟨whole, hwhole, hpiece⟩ := hpieces p hp
    have hplaced := placed_of_mem_fragments hwhole
    obtain ⟨hne, hstart, hle, hend⟩ := span_of_mem_pieces hplaced hpiece
    exact ⟨hne, Nat.le_trans (one_le_startLine hplaced) hstart, hle,
      Nat.le_trans hend (hlast whole hwhole)⟩
  obtain ⟨hne, hone, hle, -⟩ := hspan r.first List.mem_cons_self
  refine ⟨Run.content_joined_ne_nil hne, ?_, ?_, Run.endLine_joined_le fun p hp => (hspan p hp).2.2.2⟩
  · exact Run.startLine_joined (r := r) ▸ hone
  · exact Nat.le_trans (Run.startLine_joined (r := r) ▸ hle) (Run.first_le_joined r).1

/-- A source has no fragments exactly if it is blank.  Its fragments are numbered from zero, have
text, and span lines of the source; where the file is kept as a whole, a line feed at its end opens no
line that they could span. -/
theorem chunk_wellFormed (o : Options) (source : List Char) (tree : Syntax.Tree) :
    (sizeBound ≤ o.maxSize * 6 ∧ chunk o source tree = .error .overflow) ∨
    ∃ fs, chunk o source tree = .ok fs ∧
      (fs = [] ↔ Text.isAllBlank source = true) ∧
      fs.map (·.id) = List.range fs.length ∧
      ∀ f ∈ fs, f.content ≠ [] ∧ 1 ≤ f.startLine ∧ f.startLine ≤ f.endLine ∧
        f.endLine ≤ 1 + Text.newlines source ∧
        (structural source (matches_ source tree) = [] → f.endLine ≤ Text.lineCount source) := by
  refine chunk_cases ⟨⟨fun hnil => ?_, fun hblank => chunked_eq_nil_of_blank hblank o tree⟩, ?_,
    fun f hf => ?_⟩
  · refine Bool.of_not_eq_false fun hblank => ?_
    exact chunked_ne_nil hblank hnil
  · rw [chunked, ids_number, number, List.length_map, List.length_zipIdx]
  · obtain ⟨hne, hone, hle, hend⟩ := span_of_mem_chunked
      (fun whole hwhole => endLine_le_newlines (placed_of_mem_fragments hwhole)) hf
    refine ⟨hne, hone, hle, hend, fun hnil => ?_⟩
    refine (span_of_mem_chunked (fun whole hwhole => ?_) hf).2.2.2
    rcases mem_fragments hwhole with hfound | ⟨-, hblank, rfl⟩
    · rw [hnil] at hfound
      exact absurd hfound List.not_mem_nil
    · have hsource : source ≠ [] := by
        rintro rfl
        cases hblank
      have hpos := List.length_pos_of_ne_nil (pieceLines_ne_nil source)
      rw [length_pieceLines hsource] at hpos
      exact Nat.max_le.2 ⟨Nat.le_refl _, hpos⟩

/-! ### Runs of pieces -/

theorem groups_ascending (hms : ms.Pairwise fun a b => a.start ≤ b.start) :
    (groups ms).Pairwise fun a b => a.start ≤ b.start := by
  rw [← nodes_groups ms, List.pairwise_flatMap] at hms
  obtain ⟨hinside, hbetween⟩ := hms
  refine hbetween.imp_of_mem fun {a b} _ hb hab => ?_
  have hfirst : b.start = b.first.start := Group.start_eq (List.pairwise_cons.1 (hinside b hb)).1
  rw [hfirst]
  exact Nat.le_trans (Group.start_le List.mem_cons_self)
    (hab a.first List.mem_cons_self b.first List.mem_cons_self)

/-- The fragments of the structure come in the order of their first lines. -/
theorem fragments_ascending (source : List Char) (tree : Syntax.Tree) :
    (fragments source tree).Pairwise fun a b => a.startLine ≤ b.startLine := by
  have hgroups : (groups ((matches_ source tree).mergeSort Match.before)).Pairwise
      fun a b => a.start ≤ b.start :=
    groups_ascending (ordered_mergeSort _).ascending
  have hlined : ∀ g ∈ groups ((matches_ source tree).mergeSort Match.before), g.Lined source :=
    lined_groups fun m hm => lined_of_mem_matches (List.mem_mergeSort.1 hm)
  have hstructural : (structural source (matches_ source tree)).Pairwise
      fun a b => a.startLine ≤ b.startLine := by
    refine List.pairwise_filterMap.2 (hgroups.imp_of_mem ?_)
    intro a b ha hb hab f hf p hp
    have hline : ∀ {g : Group} {f : Fragment}, g.fragment source = some f →
        f.startLine = g.startLine := by
      intro g f h
      unfold Group.fragment at h
      dsimp only at h
      split at h <;> cases h
      rfl
    rw [hline hf, hline hp, (hlined a ha).startLine_eq, (hlined b hb).startLine_eq]
    exact Text.lineAt_mono source hab
  unfold fragments
  split
  · split
    · exact List.Pairwise.nil
    · exact List.pairwise_singleton _ _
  · assumption

/-- The fragments of a source are runs of pieces.  Each line of a piece lies in the line of the source
with its number, within the lines that the piece names.  A fragment has the lines of its pieces one
after another; it ends no earlier than any of them, and it starts where the first of them does.  No
other piece starts further up where nothing was so large that it had to be split. -/
theorem chunk_spans (o : Options) (source : List Char) (tree : Syntax.Tree) :
    (sizeBound ≤ o.maxSize * 6 ∧ chunk o source tree = .error .overflow) ∨
    ∃ (ps : List (List Fragment)) (runs : List Run),
      (fragments source tree).mapM (split o) = .ok ps ∧
      chunk o source tree = .ok (number (runs.map Run.joined)) ∧
      runs.flatMap Run.fragments = ps.flatten ∧
      ∀ r ∈ runs, (∀ p ∈ r.fragments, p.Truthful source) ∧
        Text.splitLines r.joined.content =
          r.fragments.flatMap (fun p => Text.splitLines p.content) ∧
        (∀ p ∈ r.fragments, p.endLine ≤ r.joined.endLine) ∧
        r.joined.startLine = r.first.startLine ∧
        ((∀ f ∈ fragments source tree, f.content.length ≤ o.maxSize) →
          ∀ p ∈ r.fragments, r.joined.startLine ≤ p.startLine) := by
  obtain ⟨runs, hchunked, hfragments, -⟩ := chunked_eq_runs o source tree
  by_cases hover : sizeBound ≤ o.maxSize * 6
  · exact .inl ⟨hover, chunk_of_le hover source tree⟩
  have hsize : o.maxSize * 6 < sizeBound := Nat.not_le.1 hover
  refine .inr ⟨_, runs, mapM_split_of_lt (by omega) _, by rw [chunk_of_lt hsize, hchunked],
    by rw [hfragments, List.flatMap_def], fun r hr => ⟨fun p hp => ?_, Run.splitLines_joined r,
    fun p hp => (Run.le_joined hp).1, Run.startLine_joined, fun hsmall => ?_⟩⟩
  · have hpiece : p ∈ runs.flatMap Run.fragments := List.mem_flatMap.2 ⟨r, hr, hp⟩
    rw [hfragments] at hpiece
    obtain ⟨whole, hwhole, hpiece⟩ := List.mem_flatMap.1 hpiece
    exact truthful_of_mem_pieces (placed_of_mem_fragments hwhole) hpiece
  · have hwhole : (fragments source tree).flatMap (pieces o) = fragments source tree := by
      rw [List.flatMap_congr fun f hf => pieces_of_le (hsmall f hf), List.flatMap_singleton']
    have hascending := fragments_ascending source tree
    rw [← hwhole, ← hfragments, List.pairwise_flatMap] at hascending
    intro p hp
    rw [Run.startLine_joined]
    rcases List.mem_cons.1 hp with rfl | hp
    · exact Nat.le_refl _
    · exact (List.pairwise_cons.1 (hascending.1 r hr)).1 p hp

/-- A class with two methods.  Its last line is so short a piece that the first method is joined to
it. -/
def cacheSource : List Char :=
  Text.joinLines ["class Cache \x7b".toList,
    "  get(key) \x7b return this.entries.get(key) ?? null; \x7d // null for what is unknown".toList,
    "  put(key, value) \x7b return this.entries.set(key, value); \x7d \x7d".toList, []]

def cacheTree : Syntax.Tree :=
  .branch "program" 0 156 [.branch "class_declaration" 0 155 [.branch "class_body" 12 155
    [.branch "method_definition" 16 66 [], .branch "comment" 67 94 [],
      .branch "method_definition" 97 153 []]]]

theorem fragments_cache : fragments cacheSource cacheTree =
    [⟨0, slice cacheSource 0 155, 1, 3, .class_, "class_declaration"⟩,
      ⟨0, slice cacheSource 16 66, 2, 2, .function, "method_definition"⟩,
      ⟨0, slice cacheSource 97 153, 3, 3, .function, "method_definition"⟩] := by
  have hmatches : matches_ cacheSource cacheTree =
      [⟨0, 155, 1, 3, ⟨true, .class_⟩, "class_declaration"⟩,
        ⟨16, 66, 2, 2, ⟨true, .function⟩, "method_definition"⟩,
        ⟨97, 153, 3, 3, ⟨true, .function⟩, "method_definition"⟩] := by
    rw [matches_eq_filterMap]
    decide +kernel
  unfold fragments
  rw [hmatches, structural, List.mergeSort_of_pairwise (by decide)]
  decide +kernel

/-- The first method stands in the second line, and its text is in a fragment that says that it begins
in the third. -/
theorem chunk_spans_not_cache :
    ∃ fs, chunk ⟨100, 0⟩ cacheSource cacheTree = .ok fs ∧ ∃ f ∈ fs, f.startLine = 3 ∧
      ∃ line ∈ Text.splitLines f.content, line ≠ [] ∧
        ∀ n whole, (Text.splitLines cacheSource)[n]? = some whole → line <:+: whole → n + 1 = 2 := by
  have hchunked : (chunked ⟨100, 0⟩ cacheSource cacheTree).map (fun f => (f.content, f.startLine)) =
      [(slice cacheSource 0 94, 1), (slice cacheSource 95 155 ++ '\n' :: slice cacheSource 16 66, 3),
        (slice cacheSource 97 153, 3)] := by
    rw [chunked, fragments_cache]
    decide +kernel
  obtain ⟨f, hf, hpair⟩ : ∃ f ∈ chunked ⟨100, 0⟩ cacheSource cacheTree, (f.content, f.startLine) =
      (slice cacheSource 95 155 ++ '\n' :: slice cacheSource 16 66, 3) := by
    rw [← List.mem_map, hchunked]
    exact List.mem_cons_of_mem _ List.mem_cons_self
  obtain ⟨hcontent, hstart⟩ := Prod.mk.inj hpair
  have honly : ∀ n < (Text.splitLines cacheSource).length, ∀ whole ∈ (Text.splitLines cacheSource)[n]?,
      slice cacheSource 16 66 <:+: whole → n + 1 = 2 := by
    decide +kernel
  refine ⟨_, chunk_of_lt (by decide) _ _, f, hf, hstart, slice cacheSource 16 66, ?_, by decide +kernel,
    fun n whole hwhole => ?_⟩
  · rw [hcontent]
    decide +kernel
  · exact honly n (List.getElem?_eq_some_iff.1 hwhole).1 whole hwhole

end CodeIndex.Chunk
