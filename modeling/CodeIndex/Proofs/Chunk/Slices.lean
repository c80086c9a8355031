import CodeIndex.Proofs.Chunk.Spans

/-! A file that is kept as a whole and then split.  Its fragments are runs of windows of its lines.
Such a fragment is a slice of the file exactly if the windows of its run have no line in common;
joining repeats the lines that they have. -/

namespace CodeIndex.Chunk

variable {o : Options} {source : List Char} {tree : Syntax.Tree} {f : Fragment}
  {lines : List (List Char)} {a b w : Nat × Nat} {ws part : List (Nat × Nat)} {stop : Nat}

/-- The number of characters of a window. -/
def span (lines : List (List Char)) (w : Nat × Nat) : Nat := joinedLength (window lines w.1 w.2)

/-- The lines of windows, one window after another. -/
def laid (lines : List (List Char)) (part : List (Nat × Nat)) : List (List Char) :=
  part.flatMap fun w => window lines w.1 w.2

/-! ### Windows without text -/

theorem length_content_pieceAt : (pieceAt f lines w).content.length = span lines w :=
  length_joinLines _

theorem content_isEmpty_iff : (pieceAt f lines w).content.isEmpty = true ↔ span lines w = 0 := by
  rw [List.isEmpty_iff_length_eq_zero, length_content_pieceAt]

theorem length_sub_one_le_joinedLength (lines : List (List Char)) :
    lines.length - 1 ≤ joinedLength lines := Nat.le_add_left _ _

/-- A window without text is a single, empty line. -/
theorem stop_of_span_eq_zero (hproper : w.1 < w.2) (hstop : w.2 ≤ lines.length)
    (h : span lines w = 0) : w.2 = w.1 + 1 := by
  have hle := length_sub_one_le_joinedLength (window lines w.1 w.2)
  rw [length_window] at hle
  unfold span at h
  omega

/-- A window before one without text is full. -/
theorem maxSize_le_before (h : Next o lines a b) (hproper : b.1 < b.2) (hstop : b.2 ≤ lines.length)
    (hempty : span lines b = 0) : o.maxSize ≤ span lines a := by
  have hb := stop_of_span_eq_zero hproper hstop hempty
  have hstart : b.1 = a.2 := by
    have := h.start_le
    have := h.stop_lt
    omega
  obtain ⟨line, hline⟩ : ∃ line, lines[a.2]? = some line :=
    ⟨_, List.getElem?_eq_getElem (by omega)⟩
  have hnil : line.length = 0 := by
    have hsucc := joinedLength_window_succ (Nat.le_refl a.2) hline
    rw [window_self, if_pos rfl, ← hstart, ← hb] at hsucc
    have : joinedLength [] = 0 := rfl
    unfold span at hempty
    omega
  have hle : a.1 ≤ a.2 := Nat.le_of_lt (Nat.lt_of_lt_of_le h.start_lt h.start_le)
  have hfull := h.full
  rw [joinedLength_window_succ hle hline] at hfull
  unfold span
  split at hfull <;> omega

/-- A window after one without text is full. -/
theorem maxSize_le_after (h : Next o lines a b) (hproper : a.1 < a.2) (hstop : b.2 ≤ lines.length)
    (hempty : span lines a = 0) : o.maxSize ≤ span lines b := by
  have hstops := h.stop_lt
  have ha := stop_of_span_eq_zero hproper (by omega) hempty
  have hstart : b.1 = a.2 := by
    have := h.start_lt
    have := h.start_le
    omega
  obtain ⟨line, hline⟩ : ∃ line, lines[a.2]? = some line :=
    ⟨_, List.getElem?_eq_getElem (by omega)⟩
  have hmem : line ∈ window lines b.1 b.2 := by
    refine List.mem_of_getElem? (i := 0) ?_
    rw [window, List.getElem?_take, if_pos (by omega), List.getElem?_drop, Nat.add_zero, hstart, hline]
  have hline_le : line.length ≤ span lines b := by
    rw [span, ← length_joinLines]
    exact (Text.isInfix_joinLines hmem).length_le
  have hfull := h.full
  rw [joinedLength_window_succ (Nat.le_of_lt hproper) hline, if_neg (by omega)] at hfull
  unfold span at hempty
  omega

/-- What is known of two windows with text when those without text are left out between them. -/
def Apart (o : Options) (lines : List (List Char)) (a b : Nat × Nat) : Prop :=
  Next o lines a b ∨ o.maxSize ≤ span lines a ∧ o.maxSize ≤ span lines b

/-- The windows that have text. -/
def kept (lines : List (List Char)) (ws : List (Nat × Nat)) : List (Nat × Nat) :=
  ws.filter fun w => span lines w != 0

theorem kept_cons_of_eq_zero (h : span lines a = 0) : kept lines (a :: ws) = kept lines ws :=
  List.filter_cons_of_neg (by simpa using h)

theorem kept_cons_of_ne_zero (h : span lines a ≠ 0) : kept lines (a :: ws) = a :: kept lines ws :=
  List.filter_cons_of_pos (by simpa using h)

theorem maxSize_le_head_kept (hchain : (a :: ws).IsChain (Next o lines))
    (hproper : ∀ w ∈ a :: ws, w.1 < w.2) (hstop : ∀ w ∈ a :: ws, w.2 ≤ lines.length)
    (hempty : span lines a = 0) : ∀ b ∈ (kept lines ws).head?, o.maxSize ≤ span lines b := by
  induction ws generalizing a with
  | nil => exact fun b hb => nomatch hb
  | cons next rest ih =>
    obtain ⟨hnext, hrest⟩ := List.isChain_cons_cons.1 hchain
    intro b hb
    by_cases hzero : span lines next = 0
    · rw [kept_cons_of_eq_zero hzero] at hb
      exact ih hrest (fun w hw => hproper w (List.mem_cons_of_mem _ hw))
        (fun w hw => hstop w (List.mem_cons_of_mem _ hw)) hzero b hb
    · rw [kept_cons_of_ne_zero hzero] at hb
      obtain rfl := Option.some.inj hb
      exact maxSize_le_after hnext (hproper a List.mem_cons_self)
        (hstop next (List.mem_cons_of_mem _ List.mem_cons_self)) hempty

theorem apart_kept (hchain : ws.IsChain (Next o lines)) (hproper : ∀ w ∈ ws, w.1 < w.2)
    (hstop : ∀ w ∈ ws, w.2 ≤ lines.length) : (kept lines ws).IsChain (Apart o lines) := by
  induction ws with
  | nil => exact List.IsChain.nil
  | cons first rest ih =>
    have hproper' : ∀ w ∈ rest, w.1 < w.2 := fun w hw => hproper w (List.mem_cons_of_mem _ hw)
    have hstop' : ∀ w ∈ rest, w.2 ≤ lines.length := fun w hw => hstop w (List.mem_cons_of_mem _ hw)
    have hrest := ih hchain.tail hproper' hstop'
    by_cases hzero : span lines first = 0
    · rw [kept_cons_of_eq_zero hzero]
      exact hrest
    · rw [kept_cons_of_ne_zero hzero]
      refine List.isChain_cons.2 ⟨?_, hrest⟩
      cases rest with
      | nil => exact fun b hb => nomatch hb
      | cons next more =>
        have hnext := (List.isChain_cons_cons.1 hchain).1
        intro b hb
        by_cases hgone : span lines next = 0
        · rw [kept_cons_of_eq_zero hgone] at hb
          refine .inr ⟨maxSize_le_before hnext ?_ ?_ hgone, ?_⟩
          · exact hproper' next List.mem_cons_self
          · exact hstop' next List.mem_cons_self
          · exact maxSize_le_head_kept hchain.tail hproper' hstop' hgone b hb
        · rw [kept_cons_of_ne_zero hgone] at hb
          obtain rfl := Option.some.inj hb
          exact .inl hnext

/-! ### Runs of windows -/

section

variable (hstop : ∀ w ∈ a :: ws, w.2 ≤ lines.length)
  (hlast : (a :: ws).getLast?.map Prod.snd = some stop)
include hstop hlast

/-- Windows that leave out no line have at least as many lines as lie between their ends. -/
theorem le_length_laid (hchain : (a :: ws).IsChain fun a b => b.1 ≤ a.2) :
    stop - a.1 ≤ (laid lines (a :: ws)).length := by
  induction ws generalizing a with
  | nil =>
    have hend : a.2 = stop := Option.some.inj hlast
    have hle := hstop a List.mem_cons_self
    simp only [laid, List.flatMap_cons, List.flatMap_nil, List.append_nil, length_window]
    omega
  | cons next rest ih =>
    obtain ⟨hnext, hrest⟩ := List.isChain_cons_cons.1 hchain
    rw [List.getLast?_cons_cons] at hlast
    have hmore := ih (fun w hw => hstop w (List.mem_cons_of_mem _ hw)) hlast hrest
    have hle := hstop a List.mem_cons_self
    rw [laid, List.flatMap_cons, List.length_append, length_window]
    unfold laid at hmore
    omega

omit hstop in
theorem first_lt_stop (hchain : (a :: ws).IsChain fun a b => a.1 < b.1)
    (hproper : ∀ w ∈ a :: ws, w.1 < w.2) : a.1 < stop := by
  induction ws generalizing a with
  | nil =>
    have hend : a.2 = stop := Option.some.inj hlast
    exact hend ▸ hproper a List.mem_cons_self
  | cons next rest ih =>
    obtain ⟨hnext, hrest⟩ := List.isChain_cons_cons.1 hchain
    rw [List.getLast?_cons_cons] at hlast
    exact Nat.lt_trans hnext (ih hlast hrest fun w hw => hproper w (List.mem_cons_of_mem _ hw))

/-- Windows that leave out no line are the lines between their ends exactly if none of them has a line
of the one before it. -/
theorem laid_eq_window_iff (hchain : (a :: ws).IsChain (Next o lines))
    (hproper : ∀ w ∈ a :: ws, w.1 < w.2) :
    laid lines (a :: ws) = window lines a.1 stop ↔ (a :: ws).IsChain fun a b => a.2 = b.1 := by
  induction ws generalizing a with
  | nil =>
    have hend : a.2 = stop := Option.some.inj hlast
    rw [← hend]
    exact iff_of_true (List.append_nil _) (List.isChain_singleton _)
  | cons next rest ih =>
    obtain ⟨hnext, hrest⟩ := List.isChain_cons_cons.1 hchain
    rw [List.getLast?_cons_cons] at hlast
    have hproper' : ∀ w ∈ next :: rest, w.1 < w.2 := fun w hw => hproper w (List.mem_cons_of_mem _ hw)
    have hstop' : ∀ w ∈ next :: rest, w.2 ≤ lines.length := fun w hw =>
      hstop w (List.mem_cons_of_mem _ hw)
    have ihrest := ih hstop' hlast hrest hproper'
    have hfirst := first_lt_stop hlast (hrest.imp fun _ _ h => h.start_lt) hproper'
    have happ : laid lines (a :: next :: rest) =
        window lines a.1 a.2 ++ laid lines (next :: rest) := List.flatMap_cons ..
    have ha := hproper a List.mem_cons_self
    rw [List.isChain_cons_cons, happ, ← ihrest]
    constructor
    · intro heq
      -- by their number, the lines leave no room for one that is repeated
      have hmeet : a.2 = next.1 := by
        have hcount := congrArg List.length heq
        have hmore := le_length_laid hstop' hlast (hrest.imp fun _ _ h => h.start_le)
        have hle := hstop a List.mem_cons_self
        have hnextStart := hnext.start_le
        rw [List.length_append, length_window, length_window] at hcount
        omega
      have hwhole : window lines a.1 stop = window lines a.1 a.2 ++ window lines a.2 stop :=
        window_append (Nat.le_of_lt ha) (by omega)
      rw [hwhole, hmeet] at heq
      exact ⟨hmeet, List.append_cancel_left heq⟩
    · rintro ⟨hmeet, heq⟩
      rw [heq, ← hmeet]
      exact (window_append (Nat.le_of_lt ha) (by omega)).symm

end

/-! ### Files that are kept as a whole -/

/-- The joined fragment of a run of windows. -/
theorem joined_of_windows {r : Run} (hr : r.fragments = (a :: ws).map (pieceAt f lines))
    (hfree : ∀ line ∈ lines, '\n' ∉ line) (hchain : (a :: ws).IsChain (Next o lines))
    (hproper : ∀ w ∈ a :: ws, w.1 < w.2) (hstop : ∀ w ∈ a :: ws, w.2 ≤ lines.length)
    (hlast : (a :: ws).getLast?.map Prod.snd = some stop) :
    Text.splitLines r.joined.content = laid lines (a :: ws) ∧
      r.joined.startLine = f.startLine + a.1 ∧ r.joined.endLine = f.startLine + (stop - 1) := by
  have hends : ∀ w ∈ a :: ws, (pieceAt f lines w).endLine = f.startLine + (w.2 - 1) := fun w hw =>
    congrArg (f.startLine + ·) (Nat.max_eq_left (Nat.le_sub_one_of_lt (hproper w hw)))
  refine ⟨?_, ?_, Nat.le_antisymm ?_ ?_⟩
  · rw [Run.splitLines_joined, hr, List.flatMap_map]
    exact List.flatMap_congr fun w hw => splitLines_piece hfree (hproper w hw) (hstop w hw)
  · rw [Run.startLine_joined, (List.cons.inj hr).1]
    rfl
  · refine Run.endLine_joined_le fun p hp => ?_
    obtain ⟨w, hw, rfl⟩ := List.mem_map.1 (hr ▸ hp)
    rw [hends w hw]
    exact Nat.add_le_add_left (Nat.sub_le_sub_right (stop_le_last hchain hlast hw) 1) _
  · obtain ⟨final, hfinal, rfl⟩ := Option.map_eq_some_iff.1 hlast
    have hmem := List.mem_of_getLast? hfinal
    rw [← hends final hmem]
    exact (Run.le_joined (hr ▸ List.mem_map_of_mem hmem)).1

/-- Where windows with text are joined, none was left out between them. -/
theorem next_of_within (hchain : part.IsChain (Apart o lines))
    (hwithin : (part.map (pieceAt f lines)).IsChain
      fun a b => a.content.length + 1 + b.content.length < o.maxSize * 6 / 5) :
    part.IsChain (Next o lines) := by
  rw [List.isChain_map] at hwithin
  rw [List.isChain_iff_forall_rel_of_append_cons_cons] at hchain hwithin ⊢
  intro a b before after hpart
  have hsize := hwithin hpart
  rw [length_content_pieceAt, length_content_pieceAt] at hsize
  rcases hchain hpart with hnext | ⟨ha, hb⟩
  · exact hnext
  · omega

theorem pieces_eq_kept (h : o.maxSize < f.content.length) :
    ∃ ws, Tiling o (pieceLines f.content) ws ∧
      pieces o f = (kept (pieceLines f.content) ws).map (pieceAt f (pieceLines f.content)) := by
  obtain ⟨ws, htiling, hpieces⟩ := pieces_eq_windows h
  refine ⟨ws, htiling, ?_⟩
  rw [hpieces, List.filter_map]
  refine congrArg _ (List.filter_congr fun w _ => ?_)
  have hlength : (pieceAt f (pieceLines f.content) w).content.isEmpty =
      (span (pieceLines f.content) w == 0) := by
    rw [Bool.eq_iff_iff, content_isEmpty_iff, beq_iff_eq]
  exact congrArg (!·) hlength

/-- The library has this for maps of a type to itself. -/
theorem infix_flatMap {α β : Type} {g : α → List β} {xs : List α} {x : α} (h : x ∈ xs) :
    g x <:+: xs.flatMap g := by
  obtain ⟨before, after, rfl⟩ := List.append_of_mem h
  refine ⟨before.flatMap g, after.flatMap g, ?_⟩
  rw [List.flatMap_append, List.flatMap_cons, List.append_assoc]

/-- The fragments of a file that is kept as a whole.  One that is not too large is its only fragment.
The lines of a larger one are covered by windows, and each of its fragments has the lines of some that
stand one after another.  It is the slice of the file that it says it is exactly if each of these windows
begins where the one before it ends. -/
theorem chunk_slices (hnil : structural source (matches_ source tree) = [])
    (hblank : Text.isAllBlank source = false) :
    (sizeBound ≤ o.maxSize * 6 ∧ chunk o source tree = .error .overflow) ∨
    ∃ fs, chunk o source tree = .ok fs ∧
      (source.length ≤ o.maxSize → fs = [wholeFile source tree]) ∧
      (o.maxSize < source.length → ∃ ws, Tiling o (pieceLines source) ws ∧
        ∀ f ∈ fs, ∃ first rest, first :: rest <:+: kept (pieceLines source) ws ∧
          f.startLine = first.1 + 1 ∧ (first :: rest).getLast?.map Prod.snd = some f.endLine ∧
          Text.splitLines f.content = laid (pieceLines source) (first :: rest) ∧
          (f.content = Text.joinLines (window (pieceLines source) (f.startLine - 1) f.endLine) ↔
            (first :: rest).IsChain fun a b => a.2 = b.1)) := by
  have hfragments := fragments_of_nil hnil hblank
  refine chunk_cases ⟨fun hsmall => ?_, fun hlarge => ?_⟩
  · have hwhole : pieces o (wholeFile source tree) = [wholeFile source tree] := pieces_of_le hsmall
    rw [chunked, hfragments, List.flatMap_singleton, hwhole]
    rfl
  obtain ⟨ws, htiling, hkept⟩ := pieces_eq_kept (o := o) (f := wholeFile source tree) hlarge
  refine ⟨ws, htiling, fun f hf => ?_⟩
  obtain ⟨runs, hchunked, hpieces, hwithin⟩ := chunked_eq_runs o source tree
  rw [hchunked] at hf
  obtain ⟨whole, hwhole, i, rfl⟩ := mem_number hf
  obtain ⟨r, hr, rfl⟩ := List.mem_map.1 hwhole
  obtain ⟨part, hpart, hrun⟩ : ∃ part, part <:+: kept (pieceLines source) ws ∧
      r.fragments = part.map (pieceAt (wholeFile source tree) (pieceLines source)) := by
    refine List.infix_map_iff.1 ?_
    rw [hfragments, List.flatMap_singleton, hkept] at hpieces
    exact hpieces ▸ infix_flatMap hr
  obtain ⟨first, rest, rfl⟩ : ∃ first rest, part = first :: rest := by
    refine List.exists_cons_of_ne_nil ?_
    rintro rfl
    cases hrun
  have hmem : ∀ w ∈ first :: rest, w ∈ ws := fun w hw =>
    List.mem_of_mem_filter (hpart.subset hw)
  have hproper : ∀ w ∈ first :: rest, w.1 < w.2 := fun w hw => htiling.proper w (hmem w hw)
  have hstop : ∀ w ∈ first :: rest, w.2 ≤ (pieceLines source).length := fun w hw =>
    htiling.stop_le (hmem w hw)
  have hchain : (first :: rest).IsChain (Next o (pieceLines source)) := by
    refine next_of_within (f := wholeFile source tree) ?_ (hrun ▸ hwithin r hr)
    have hapart := apart_kept htiling.chain htiling.proper fun w hw => htiling.stop_le hw
    exact List.IsChain.infix hapart hpart
  obtain ⟨stop, hlast⟩ : ∃ stop, (first :: rest).getLast?.map Prod.snd = some stop := by
    rw [List.getLast?_eq_getLast_of_ne_nil (List.cons_ne_nil first rest)]
    exact ⟨_, rfl⟩
  obtain ⟨hlines, hstart, hend⟩ := joined_of_windows hrun newline_not_mem_of_mem_pieceLines hchain
    hproper hstop hlast
  have hfirst : first.1 < stop :=
    first_lt_stop hlast (hchain.imp fun _ _ h => h.start_lt) hproper
  have hle : stop ≤ (pieceLines source).length := by
    obtain ⟨final, hfinal, rfl⟩ := Option.map_eq_some_iff.1 hlast
    exact hstop final (List.mem_of_getLast? hfinal)
  have hstart' : r.joined.startLine = first.1 + 1 := hstart.trans (Nat.add_comm 1 first.1)
  have hend' : r.joined.endLine = stop := by
    rw [hend]
    exact Nat.add_sub_of_le (Nat.one_le_of_lt hfirst)
  refine ⟨first, rest, hpart, hstart', hend' ▸ hlast, hlines, ?_⟩
  show r.joined.content = Text.joinLines (window _ (r.joined.startLine - 1) r.joined.endLine) ↔ _
  rw [hstart', hend', Nat.add_sub_cancel, ← laid_eq_window_iff hstop hlast hchain hproper, ← hlines]
  exact Text.eq_joinLines_iff (window_ne_nil hfirst hle) fun line hline =>
    newline_not_mem_of_mem_pieceLines line (mem_of_mem_window hline)

/-- A small file is its only fragment.  Of a larger one the last line goes to the piece before it, and
the fragment is the slice of both lines. -/
theorem chunk_slices_comment :
    chunk {} commentSource commentTree = .ok [wholeFile commentSource commentTree] ∧
      ∃ fs, chunk ⟨8, 0⟩ commentSource commentTree = .ok fs ∧ ∃ f ∈ fs,
        f.content = "// a\n// b".toList ∧ ∃ ws first rest,
          Tiling ⟨8, 0⟩ (pieceLines commentSource) ws ∧
          first :: rest <:+: kept (pieceLines commentSource) ws ∧
          f.startLine = first.1 + 1 ∧ (first :: rest).getLast?.map Prod.snd = some f.endLine ∧
          (first :: rest).IsChain fun a b => a.2 = b.1 := by
  have hblank : Text.isAllBlank commentSource = false := by decide
  obtain ⟨whole, hwhole, hsmall, -⟩ :=
    (chunk_slices (o := {}) structural_comment hblank).resolve_left not_overflow_of_default
  obtain ⟨fs, hchunk, -, hlarge⟩ := (chunk_slices (o := ⟨8, 0⟩) structural_comment hblank).resolve_left
    fun h => absurd h.1 (by decide)
  have hfs : fs = [⟨0, "// a\n// b".toList, 1, 2, .code, "program"⟩] :=
    Except.ok.inj (hchunk.symm.trans chunk_comment)
  obtain ⟨ws, htiling, hslices⟩ := hlarge (by decide)
  rw [hfs] at hslices
  obtain ⟨first, rest, hpart, hstart, hend, -, hslice⟩ := hslices _ List.mem_cons_self
  refine ⟨hwhole.trans (congrArg Except.ok (hsmall (by decide))), fs, hchunk, _,
    hfs ▸ List.mem_cons_self, rfl, ws, first, rest, htiling, hpart, hstart, hend, hslice.1 ?_⟩
  decide

/-- Comments, a short one after the first, and a long one at the end. -/
def notesSource : List Char :=
  Text.joinLines ["// ".toList ++ List.replicate 47 'a', "// b".toList,
    "// ".toList ++ List.replicate 47 'c', "// ".toList ++ List.replicate 96 'd', []]

def notesTree : Syntax.Tree :=
  .branch "program" 0 207 [.branch "comment" 0 50 [], .branch "comment" 51 55 [],
    .branch "comment" 56 106 [], .branch "comment" 107 206 []]

theorem structural_notes : structural notesSource (matches_ notesSource notesTree) = [] := by
  have hmatches : notesTree.preorder.filterMap (Match.ofLabel notesSource) = [] := by decide +kernel
  rw [matches_eq_filterMap, hmatches, structural, List.mergeSort_nil]
  rfl

/-- The second comment ends the first window and begins the second.  Both are joined, and the fragment
has it twice. -/
theorem chunk_slices_not_notes :
    ∃ fs, chunk ⟨100, 0⟩ notesSource notesTree = .ok fs ∧ ∃ f ∈ fs,
      f.startLine = 1 ∧ f.endLine = 3 ∧
      (Text.splitLines f.content).count "// b".toList = 2 ∧
      (window (Text.splitLines notesSource) 0 3).count "// b".toList = 1 := by
  have hnotes : fragments notesSource notesTree = [wholeFile notesSource notesTree] :=
    fragments_of_nil structural_notes (by decide +kernel)
  refine ⟨_, chunk_of_lt (by decide) _ _, ?_⟩
  rw [chunked, hnotes]
  decide +kernel

end CodeIndex.Chunk
