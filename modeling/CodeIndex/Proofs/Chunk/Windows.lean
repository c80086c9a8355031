import CodeIndex.Proofs.Chunk.Cutting

/-! The pieces of a fragment as windows of its lines.  Each window starts after the one before it has
started and ends after that one has ended, and it leaves out no line in between; what two of them have
in common is the overlap. -/

namespace CodeIndex.Chunk

variable {o : Options} {f : Fragment} {lines : List (List Char)} {ws : List (Nat × Nat)}
  {a b : Nat × Nat} {p last : Part} {ps earlier : List Part}

/-- The piece of a fragment that holds the lines of a window, given by its first line and by the
line after its last. -/
def pieceAt (f : Fragment) (lines : List (List Char)) (w : Nat × Nat) : Fragment :=
  piece f lines w.1 w.2

/-- One window after another: the first has no room for its next line. -/
structure Next (o : Options) (lines : List (List Char)) (a b : Nat × Nat) : Prop where
  start_lt : a.1 < b.1
  start_le : b.1 ≤ a.2
  stop_lt : a.2 < b.2
  full : o.maxSize < joinedLength (window lines a.1 (a.2 + 1))

/-- Windows that cover all lines, from the first to the last. -/
structure Tiling (o : Options) (lines : List (List Char)) (ws : List (Nat × Nat)) : Prop where
  chain : ws.IsChain (Next o lines)
  proper : ∀ w ∈ ws, w.1 < w.2
  first : ws.head?.map Prod.fst = some 0
  last : ws.getLast?.map Prod.snd = some lines.length

/-- Of windows one after another, none ends after the last. -/
theorem stop_le_last {stop : Nat} (h : ws.IsChain (Next o lines))
    (hlast : ws.getLast?.map Prod.snd = some stop) {w : Nat × Nat} (hw : w ∈ ws) : w.2 ≤ stop := by
  obtain ⟨final, hfinal, hstop⟩ := Option.map_eq_some_iff.1 hlast
  obtain ⟨earlier, rfl⟩ := List.getLast?_eq_some_iff.1 hfinal
  rw [← hstop]
  rcases List.mem_append.1 hw with hearlier | hend
  · have hpairs : (earlier ++ [final]).Pairwise fun a b => a.2 < b.2 :=
      List.isChain_iff_pairwise.1 (h.imp fun _ _ hnext => hnext.stop_lt)
    exact Nat.le_of_lt ((List.pairwise_append.1 hpairs).2.2 w hearlier final
      (List.mem_singleton_self final))
  · rw [List.mem_singleton.1 hend]

theorem Tiling.stop_le (h : Tiling o lines ws) {w : Nat × Nat} (hw : w ∈ ws) :
    w.2 ≤ lines.length :=
  stop_le_last h.chain h.last hw

/-- A window takes in the one after it, when that is the last. -/
theorem Tiling.takeIn (h : Tiling o lines (ws ++ [a, b])) : Tiling o lines (ws ++ [(a.1, b.2)]) := by
  obtain ⟨hws, hpair, hmeet⟩ := List.isChain_append.1 h.chain
  have hnext : Next o lines a b := (List.isChain_cons_cons.1 hpair).1
  constructor
  · refine List.isChain_append.2 ⟨hws, List.isChain_singleton _, ?_⟩
    rintro w hw _ ⟨⟩
    obtain ⟨hstart, hle, hstop, hfull⟩ := hmeet w hw a rfl
    exact ⟨hstart, hle, Nat.lt_trans hstop hnext.stop_lt, hfull⟩
  · intro w hw
    rcases List.mem_append.1 hw with hw | hw
    · exact h.proper w (List.mem_append_left _ hw)
    · rw [List.mem_singleton.1 hw]
      exact Nat.lt_trans (h.proper a (by simp)) hnext.stop_lt
  · have hfirst := h.first
    cases ws with
    | nil => exact hfirst
    | cons w ws => exact hfirst
  · have hlast := h.last
    rw [List.getLast?_append] at hlast ⊢
    exact hlast

/-! ### Windows of parts -/

def Part.window (p : Part) : Nat × Nat := (p.start, p.stop)

theorem next_of_follows {a b : Part} (ha : a.Filled o lines) (hb : b.Filled o lines)
    (h : Follows o lines a b) : Next o lines a.window b.window := by
  have hlt : a.start < a.stop := Nat.lt_of_le_of_lt ha.start_le ha.fresh_lt
  have hstart : b.window.1 = carriedFrom o lines a.start a.stop := h.start_eq
  refine ⟨?_, ?_, ?_, Nat.lt_of_not_le h.full⟩
  · rw [hstart]
    exact lt_carriedFrom hlt
  · rw [hstart]
    exact carriedFrom_le hlt
  · have hfresh := hb.fresh_lt
    rwa [h.fresh_eq] at hfresh

theorem Cutting.tiling (h : Cutting o lines ps) : Tiling o lines (ps.map Part.window) where
  chain := by
    refine (List.isChain_map _).2 (h.chain.imp_of_mem_imp fun a b ha hb => ?_)
    exact next_of_follows (h.filled a ha) (h.filled b hb)
  proper w hw := by
    obtain ⟨p, hp, rfl⟩ := List.mem_map.1 hw
    exact Nat.lt_of_le_of_lt (h.filled p hp).start_le (h.filled p hp).fresh_lt
  first := by
    have hfirst := congrArg (Option.map Prod.fst) h.first
    rw [Option.map_map] at hfirst
    rw [List.head?_map, Option.map_map]
    exact hfirst
  last := by
    rw [List.getLast?_map, Option.map_map]
    exact h.last

/-- A part that takes in the next one has the lines of both. -/
theorem pieceWith_eq (hp : p.Filled o lines) (hlast : last.Filled o lines)
    (hfresh : last.fresh = p.stop) (hstop : last.stop ≤ lines.length) :
    p.pieceWith f lines last = pieceAt f lines (p.start, last.stop) := by
  obtain ⟨hstart, hlt, -⟩ := hp
  obtain ⟨hlastStart, hlastLt, -⟩ := hlast
  have hboth : window lines p.start last.stop =
      window lines p.start p.stop ++ window lines p.stop last.stop :=
    window_append (by omega) (by omega)
  have hfirst : window lines p.start p.stop ≠ [] := window_ne_nil (by omega) (by omega)
  have hsecond : window lines p.stop last.stop ≠ [] := window_ne_nil (by omega) hstop
  have hcontent := Text.joinLines_append hfirst hsecond
  have hend : max (last.stop - 1) last.start = max (last.stop - 1) p.start := by omega
  simp only [Part.pieceWith, Part.piece, pieceAt, piece, hfresh, hboth, hcontent, hend]

theorem piecesOf_eq_windows (limit : Nat) (f : Fragment) (h : Cutting o lines (earlier ++ [last])) :
    ∃ ws, Tiling o lines ws ∧ piecesOf limit f lines earlier last = ws.map (pieceAt f lines) := by
  have hmap : ∀ ps : List Part,
      ps.map (Part.piece f lines) = (ps.map Part.window).map (pieceAt f lines) := fun ps => by
    rw [List.map_map]
    rfl
  unfold piecesOf
  rcases List.eq_nil_or_concat' earlier with rfl | ⟨init, before, rfl⟩
  · exact ⟨_, h.tiling, rfl⟩
  rw [List.getLast?_concat]
  dsimp only
  split
  · refine ⟨init.map Part.window ++ [(before.start, last.stop)], ?_, ?_⟩
    · have htiling := h.tiling
      rw [List.append_assoc, List.map_append] at htiling
      exact htiling.takeIn
    · have hstop := h.tiling.stop_le (List.mem_map_of_mem (List.mem_concat_self))
      have hfollows : Follows o lines before last := by
        have hchain := h.chain
        rw [List.append_assoc] at hchain
        exact (List.isChain_cons_cons.1 (List.isChain_append.1 hchain).2.1).1
      rw [List.dropLast_concat, List.map_append, hmap,
        pieceWith_eq (h.filled _ (by simp)) (h.filled _ (by simp)) hfollows.fresh_eq hstop]
      rfl
  · exact ⟨_, h.tiling, hmap _⟩

/-! ### Splitting -/

/-- The pieces of a large fragment are those of windows that cover its lines; only those without text
are left out. -/
theorem pieces_eq_windows (h : o.maxSize < f.content.length) :
    ∃ ws, Tiling o (pieceLines f.content) ws ∧
      pieces o f = (ws.map (pieceAt f (pieceLines f.content))).filter fun p => !p.content.isEmpty := by
  obtain ⟨earlier, last, hcutting, hpieces⟩ := pieces_eq_piecesOf h
  obtain ⟨ws, htiling, hwindows⟩ := piecesOf_eq_windows (o.maxSize * 3 / 2) f hcutting
  exact ⟨ws, htiling, by rw [hpieces, hwindows]⟩

/-- What comes of splitting a fragment: itself, or the pieces of windows. -/
theorem mem_pieces {p : Fragment} (hp : p ∈ pieces o f) :
    p = f ∧ f.content.length ≤ o.maxSize ∨
      p.content ≠ [] ∧ ∃ w, w.1 < w.2 ∧ w.2 ≤ (pieceLines f.content).length ∧
        p = pieceAt f (pieceLines f.content) w := by
  by_cases hsize : f.content.length ≤ o.maxSize
  · rw [pieces_of_le hsize] at hp
    exact .inl ⟨List.mem_singleton.1 hp, hsize⟩
  · obtain ⟨ws, htiling, hpieces⟩ := pieces_eq_windows (Nat.not_le.1 hsize)
    rw [hpieces] at hp
    obtain ⟨hmem, hne⟩ := List.mem_filter.1 hp
    obtain ⟨w, hw, rfl⟩ := List.mem_map.1 hmem
    exact .inr ⟨by simpa using hne, w, htiling.proper w hw, htiling.stop_le hw, rfl⟩

theorem Cutting.start_lt (h : Cutting o lines ps) : ps.IsChain fun a b => a.start < b.start := by
  have hchain := (List.isChain_map Part.window).1 h.tiling.chain
  exact hchain.imp fun _ _ hnext => hnext.start_lt

end CodeIndex.Chunk
