import CodeIndex.Proofs.Chunk.Basic
import CodeIndex.Proofs.Chunk.Windows
import Mathlib.Order.MinMax

/-! Where fragments stand in their source.  A fragment is a part of the source and knows the lines of
that part; so does each piece that it is split into. -/

namespace CodeIndex

namespace Text

variable {cs : List Char}

theorem lineAt_mono (cs : List Char) : Monotone (lineAt cs) := fun _ _ h =>
  Nat.succ_le_succ ((List.take_prefix_take_left h).sublist.count_le '\n')

theorem not_blank_newline : isBlank '\n' = true := by decide

/-- A text that is not blank has a line with text. -/
theorem exists_line_ne_nil (h : isAllBlank cs = false) : ∃ line ∈ splitLines cs, line ≠ [] := by
  obtain ⟨c, hc, hblank⟩ := List.all_eq_false.1 h
  have hfeed : c ≠ '\n' := by
    rintro rfl
    exact hblank not_blank_newline
  have hpart : [c] <:+: cs := by
    obtain ⟨before, after, rfl⟩ := List.append_of_mem hc
    exact ⟨before, after, by simp⟩
  obtain ⟨line, hline, hmem⟩ := exists_line_of_isInfix hpart (by simpa using hfeed.symm)
  exact ⟨line, hline, List.ne_nil_of_mem (hmem.subset (List.mem_singleton_self c))⟩

end Text

namespace Chunk

variable {o : Options} {source : List Char} {tree : Syntax.Tree} {f p : Fragment} {m : Match}
  {ms : List Match} {g : Group} {line : List Char}

/-! ### The lines of groups -/

theorem Group.start_eq (h : ∀ m ∈ g.rest, g.first.start ≤ m.start) : g.start = g.first.start := by
  refine Nat.le_antisymm (Group.start_le List.mem_cons_self) ?_
  exact List.foldlRecOn (motive := (g.first.start ≤ ·)) g.rest _ (Nat.le_refl _) fun s hs m hm =>
    Nat.le_min.2 ⟨hs, h m hm⟩

theorem Group.stop_add (g : Group) (m : Match) : (g.add m).stop = max g.stop m.stop :=
  List.foldl_concat ..

/-- A node knows the lines of its span. -/
def Match.Lined (source : List Char) (m : Match) : Prop :=
  m.startLine = Text.lineAt source m.start ∧ m.endLine = Text.lineAt source m.stop

/-- A node as it is read from a source: it has the class of its kind. -/
structure Match.Read (source : List Char) (m : Match) : Prop where
  class_eq : classify m.kind = some m.cls
  lined : m.Lined source

theorem read_of_mem_matches (h : m ∈ matches_ source tree) : m.Read source := by
  rw [matches_eq_filterMap] at h
  obtain ⟨l, -, hl⟩ := List.mem_filterMap.1 h
  unfold Match.ofLabel at hl
  split at hl
  next =>
    obtain ⟨cls, hcls, rfl⟩ := Option.map_eq_some_iff.1 hl
    exact ⟨hcls, rfl, rfl⟩
  next => cases hl

theorem lined_of_mem_matches (h : m ∈ matches_ source tree) : m.Lined source :=
  (read_of_mem_matches h).lined

/-- A group knows the lines of its nodes, and the last line of its span. -/
structure Group.Lined (source : List Char) (g : Group) : Prop where
  nodes : ∀ m ∈ g.nodes, m.Lined source
  endLine_eq : g.endLine = Text.lineAt source g.stop

theorem Group.lined_single (h : m.Lined source) : (Group.single m).Lined source where
  nodes _ hn := List.mem_singleton.1 hn ▸ h
  endLine_eq := h.2

theorem Group.Lined.add (hg : g.Lined source) (hm : m.Lined source) : (g.add m).Lined source where
  nodes n hn := by
    rw [Group.nodes_add] at hn
    rcases List.mem_append.1 hn with hn | hn
    · exact hg.nodes n hn
    · exact List.mem_singleton.1 hn ▸ hm
  endLine_eq := by
    rw [Group.stop_add, (Text.lineAt_mono source).map_max, ← hg.endLine_eq, ← hm.2]
    rfl

theorem Group.Lined.startLine_eq (hg : g.Lined source) :
    g.startLine = Text.lineAt source g.start := by
  obtain ⟨first, rest, endLine⟩ := g
  have hfold : ∀ place : Nat, (∀ m ∈ rest, m.Lined source) →
      rest.foldl (fun l m => min l m.startLine) (Text.lineAt source place) =
        Text.lineAt source (rest.foldl (fun s m => min s m.start) place) := by
    clear hg
    induction rest with
    | nil => exact fun _ _ => rfl
    | cons next rest ih =>
      intro place hrest
      rw [List.foldl_cons, List.foldl_cons, ← ih _ fun m hm => hrest m (List.mem_cons_of_mem _ hm),
        (Text.lineAt_mono source).map_min, (hrest next List.mem_cons_self).1]
  have hfirst := (hg.nodes first List.mem_cons_self).1
  unfold Group.startLine Group.start
  dsimp only at hfirst ⊢
  rw [hfirst]
  exact hfold first.start fun m hm => hg.nodes m (List.mem_cons_of_mem _ hm)

theorem Group.Grown.lined (hg : g.Grown) (h : ∀ m ∈ g.nodes, m.Lined source) : g.Lined source := by
  induction hg with
  | single m => exact Group.lined_single (h m List.mem_cons_self)
  | @add g m _ _ ih =>
    rw [Group.nodes_add] at h
    refine (ih fun n hn => ?_).add ?_
    · exact h n (List.mem_append_left _ hn)
    · exact h m (List.mem_append_right _ (List.mem_singleton_self m))

theorem lined_groups (h : ∀ m ∈ ms, m.Lined source) : ∀ g ∈ groups ms, g.Lined source := by
  intro g hg
  apply (grown_of_mem_groups hg).lined
  intro m hm
  exact h m (mem_of_mem_groups hg hm)

/-! ### Parts of a source -/

/-- A fragment is a part of a source, starts in the line where the part does, and ends in a line of
the part, with all lines that have text before it. -/
structure Fragment.Placed (source : List Char) (f : Fragment) : Prop where
  part : ∃ before after, source = before ++ f.content ++ after ∧
    f.startLine = Text.newlines before + 1
  lines_le : f.startLine + (pieceLines f.content).length ≤ f.endLine + 1
  endLine_le : f.endLine ≤ f.startLine + Text.newlines f.content
  text : Text.isAllBlank f.content = false

theorem length_pieceLines_le (cs : List Char) :
    (pieceLines cs).length ≤ Text.newlines cs + 1 := by
  rw [← Text.length_splitLines]
  exact (pieceLines_isPrefix cs).length_le

/-- The number of lines is that of the parts between line feeds, but for an empty one at the end. -/
theorem length_pieceLines {cs : List Char} (h : cs ≠ []) :
    (pieceLines cs).length = Text.lineCount cs := by
  obtain ⟨init, c, rfl⟩ := List.eq_nil_or_concat' cs |>.resolve_left h
  have hlines := Text.length_splitLines (init ++ [c])
  unfold pieceLines Text.lineCount
  dsimp only
  rw [List.getLast?_concat]
  by_cases hc : c = '\n'
  · subst hc
    have hsplit : Text.splitLines (init ++ ['\n']) = Text.splitLines init ++ [[]] :=
      Text.splitLines_append_newline init []
    have hpos := List.length_pos_of_ne_nil (Text.splitLines_ne_nil init)
    rw [hsplit] at hlines ⊢
    rw [List.length_append, List.length_singleton] at hlines
    rw [if_pos ⟨by rw [List.length_append, List.length_singleton]; omega, List.getLast?_concat⟩,
      List.dropLast_concat]
    simp only [if_true]
    omega
  · simp only [hc, if_false]
    rw [if_neg, hlines]
    rintro ⟨hlong, hlast⟩
    obtain ⟨earlier, hsplit⟩ := List.getLast?_eq_some_iff.1 hlast
    have hearlier : earlier ≠ [] := by
      rintro rfl
      rw [hsplit] at hlong
      exact absurd hlong (Nat.lt_irrefl 1)
    -- an empty last line stands after a line feed
    have hjoined := Text.joinLines_append hearlier (List.cons_ne_nil [] [])
    rw [← hsplit, Text.joinLines_splitLines, Text.joinLines_singleton] at hjoined
    exact hc (List.append_inj_right' hjoined rfl |> List.cons.inj |>.1)

theorem isAllBlank_of_long {cs : List Char} (h : ¬(Text.trim cs).length < minSize) :
    Text.isAllBlank cs = false := by
  refine Bool.eq_false_iff.2 fun hblank => h ?_
  rw [Text.trim_eq_nil (List.all_eq_true.1 hblank)]
  exact Nat.zero_lt_succ _

theorem Group.placed_fragment (hg : g.Lined source) (h : g.fragment source = some f) :
    f.Placed source := by
  unfold Group.fragment at h
  dsimp only at h
  split at h
  next => cases h
  next hsize =>
    cases h
    have htext := isAllBlank_of_long hsize
    have hspan : g.start ≤ g.stop := by
      refine Nat.le_of_lt (Nat.lt_of_not_le fun hle => ?_)
      have hempty : slice source g.start g.stop = [] := by
        rw [slice, Nat.sub_eq_zero_of_le hle, List.take_zero]
      rw [hempty] at htext
      cases htext
    have htake : source.take g.stop = source.take g.start ++ slice source g.start g.stop := by
      rw [slice, ← List.take_add, Nat.add_sub_cancel' hspan]
    have hend : g.endLine = g.startLine + Text.newlines (slice source g.start g.stop) := by
      rw [hg.endLine_eq, hg.startLine_eq, Text.lineAt, Text.lineAt, htake, Text.newlines_append]
      omega
    refine ⟨⟨source.take g.start, source.drop g.stop, ?_, hg.startLine_eq⟩, ?_, ?_, htext⟩
    · rw [← htake, List.take_append_drop]
    · have hle := length_pieceLines_le (slice source g.start g.stop)
      dsimp only
      omega
    · exact Nat.le_of_eq hend

theorem placed_wholeFile (hblank : Text.isAllBlank source = false) (tree : Syntax.Tree) :
    (wholeFile source tree).Placed source := by
  have hne : source ≠ [] := by
    rintro rfl
    cases hblank
  have hlines : (pieceLines source).length = Text.lineCount source := length_pieceLines hne
  have hle := length_pieceLines_le source
  refine ⟨⟨[], [], by simp [wholeFile], rfl⟩, ?_, ?_, hblank⟩
  · show 1 + (pieceLines source).length ≤ max (Text.lineCount source) 1 + 1
    omega
  · show max (Text.lineCount source) 1 ≤ 1 + Text.newlines source
    omega

/-- What is split is the fragments of the structure, or the whole file. -/
theorem mem_fragments (h : f ∈ fragments source tree) :
    f ∈ structural source (matches_ source tree) ∨
      structural source (matches_ source tree) = [] ∧ Text.isAllBlank source = false ∧
        f = wholeFile source tree := by
  cases hfound : structural source (matches_ source tree) with
  | nil =>
    right
    rw [fragments, hfound] at h
    cases hblank : Text.isAllBlank source with
    | true =>
      rw [hblank] at h
      exact absurd h List.not_mem_nil
    | false =>
      rw [hblank] at h
      exact ⟨rfl, rfl, List.mem_singleton.1 h⟩
  | cons first rest =>
    left
    rw [fragments, hfound] at h
    exact h

theorem placed_of_mem_fragments (h : f ∈ fragments source tree) : f.Placed source := by
  rcases mem_fragments h with hf | ⟨-, hblank, rfl⟩
  · obtain ⟨g, hg, hfragment⟩ := List.mem_filterMap.1 hf
    have hlined : g.Lined source :=
      lined_groups (fun m hm => lined_of_mem_matches (List.mem_mergeSort.1 hm)) g hg
    exact Group.placed_fragment hlined hfragment
  · exact placed_wholeFile hblank tree

/-! ### Lines of pieces -/

/-- Each line of a fragment that has text lies in the line of the source with its number, and that
number is one of the fragment's. -/
def Fragment.Truthful (source : List Char) (f : Fragment) : Prop :=
  ∀ n line, (Text.splitLines f.content)[n]? = some line → line ≠ [] →
    f.startLine + n ≤ f.endLine ∧
      ∃ whole, (Text.splitLines source)[f.startLine + n - 1]? = some whole ∧ line <:+: whole

theorem Fragment.Placed.exists_line (h : f.Placed source) {n : Nat}
    (hline : (Text.splitLines f.content)[n]? = some line) :
    ∃ whole, (Text.splitLines source)[f.startLine + n - 1]? = some whole ∧ line <:+: whole := by
  obtain ⟨before, after, hsource, hstart⟩ := h.part
  have hplace : f.startLine + n - 1 = Text.newlines before + n := by omega
  rw [hplace, hsource]
  exact Text.exists_line_of_part hline before after

/-- A line with text is not the one that a line feed at the end would open. -/
theorem lt_length_pieceLines {cs : List Char} {n : Nat}
    (hline : (Text.splitLines cs)[n]? = some line) (hne : line ≠ []) :
    n < (pieceLines cs).length := by
  unfold pieceLines
  dsimp only
  obtain ⟨hlt, -⟩ := List.getElem?_eq_some_iff.1 hline
  split
  next hlast =>
    obtain ⟨earlier, hsplit⟩ := List.getLast?_eq_some_iff.1 hlast.2
    rw [hsplit] at hline hlt ⊢
    rw [List.dropLast_concat]
    refine Nat.lt_of_not_le fun hle => hne ?_
    rw [List.length_append, List.length_singleton] at hlt
    rw [List.getElem?_append_right hle, show n - earlier.length = 0 by omega] at hline
    exact (Option.some.inj hline).symm
  next => exact hlt

theorem Fragment.Placed.truthful (h : f.Placed source) : f.Truthful source := by
  intro n line hline hne
  have hlt := lt_length_pieceLines hline hne
  have hlines := h.lines_le
  exact ⟨by omega, h.exists_line hline⟩

theorem getElem?_window {lines : List (List Char)} {start stop n : Nat}
    (h : (window lines start stop)[n]? = some line) :
    lines[start + n]? = some line ∧ start + n < stop := by
  rw [window, List.getElem?_take] at h
  split at h
  · rw [List.getElem?_drop] at h
    exact ⟨h, by omega⟩
  · cases h

section

variable (hplaced : f.Placed source) (hpiece : p ∈ pieces o f)
include hplaced hpiece

theorem truthful_of_mem_pieces : p.Truthful source := by
  rcases mem_pieces hpiece with ⟨rfl, -⟩ | ⟨-, w, hproper, hstop, rfl⟩
  · exact hplaced.truthful
  · intro n line hline hne
    have hlines : Text.splitLines (pieceAt f (pieceLines f.content) w).content =
        window (pieceLines f.content) w.1 w.2 :=
      splitLines_piece newline_not_mem_of_mem_pieceLines hproper hstop
    rw [hlines] at hline
    obtain ⟨hwhole, hlt⟩ := getElem?_window hline
    have hbefore : (Text.splitLines f.content)[w.1 + n]? = some line := by
      obtain ⟨more, hmore⟩ := pieceLines_isPrefix f.content
      rw [← hmore, List.getElem?_append_left (List.getElem?_eq_some_iff.1 hwhole).1, hwhole]
    refine ⟨?_, ?_⟩
    · show f.startLine + w.1 + n ≤ f.startLine + max (w.2 - 1) w.1
      omega
    · show ∃ whole, (Text.splitLines source)[f.startLine + w.1 + n - 1]? = some whole ∧ _
      rw [Nat.add_assoc]
      exact hplaced.exists_line hbefore

/-- A piece has text, and its lines are some of those of the fragment. -/
theorem span_of_mem_pieces :
    p.content ≠ [] ∧ f.startLine ≤ p.startLine ∧ p.startLine ≤ p.endLine ∧
      p.endLine ≤ f.endLine := by
  have hlines := hplaced.lines_le
  rcases mem_pieces hpiece with ⟨rfl, -⟩ | ⟨hne, w, hproper, hstop, rfl⟩
  · have hpos := List.length_pos_of_ne_nil (pieceLines_ne_nil p.content)
    refine ⟨?_, Nat.le_refl _, by omega, Nat.le_refl _⟩
    intro hnil
    have htext := hplaced.text
    rw [hnil] at htext
    cases htext
  · refine ⟨hne, Nat.le_add_right _ _, ?_, ?_⟩
    · show f.startLine + w.1 ≤ f.startLine + max (w.2 - 1) w.1
      omega
    · show f.startLine + max (w.2 - 1) w.1 ≤ f.endLine
      omega

end

end Chunk

end CodeIndex
