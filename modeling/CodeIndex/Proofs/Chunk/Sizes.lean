import CodeIndex.Proofs.Chunk.Placement

/-! The sizes that are added up while a source is split and merged.  All of them are sizes of parts of
the source with at most a little more, so they fit into 64 bits for every text.  The two limits are
products of the greatest size with a small number, and chunking breaks off where these do not fit. -/

namespace CodeIndex.Chunk

variable {o : Options} {source : List Char} {tree : Syntax.Tree} {f p : Fragment}
  {lines : List (List Char)} {line : List Char} {i n : Nat} {cut : Cut}

/-- A text has fewer characters than this, half of what sizes can count. -/
def textBound : Nat := 0x8000000000000000

/-! ### Limits -/

theorem foldLimit_eq_ok_iff {limit : Nat} :
    o.foldLimit = .ok limit ↔ o.maxSize * 3 < sizeBound ∧ limit = o.maxSize * 3 / 2 := by
  by_cases hsize : o.maxSize * 3 < sizeBound
  · rw [foldLimit_of_lt hsize, Except.ok.injEq]
    exact eq_comm.trans (and_iff_right hsize).symm
  · rw [foldLimit_of_le (Nat.not_lt.1 hsize)]
    exact iff_of_false nofun fun h => hsize h.1

theorem mergeLimit_eq_ok_iff {limit : Nat} :
    o.mergeLimit = .ok limit ↔ o.maxSize * 6 < sizeBound ∧ limit = o.maxSize * 6 / 5 := by
  by_cases hsize : o.maxSize * 6 < sizeBound
  · rw [mergeLimit_of_lt hsize, Except.ok.injEq]
    exact eq_comm.trans (and_iff_right hsize).symm
  · rw [mergeLimit_of_le (Nat.not_lt.1 hsize)]
    exact iff_of_false nofun fun h => hsize h.1

theorem chunk_eq_error_iff : chunk o source tree = .error .overflow ↔ sizeBound ≤ o.maxSize * 6 := by
  refine ⟨fun h => Nat.le_of_not_lt fun hsize => ?_, fun h => chunk_of_le h source tree⟩
  rw [chunk_of_lt hsize] at h
  cases h

/-! ### Sums -/

/-- The cut after the first `i` lines. -/
inductive Cut.Reached (o : Options) (f : Fragment) (lines : List (List Char)) : Nat → Cut → Prop
  | start : Reached o f lines 0 ⟨0, 0, 0, []⟩
  | add {i : Nat} {line : List Char} {cut : Cut} (reached : Reached o f lines i cut)
      (hline : lines[i]? = some line) : Reached o f lines (i + 1) (cut.add o f lines i line)

/-- What is added up when a line is taken in: the piece under way with the line; the lines of the
source at which the piece would end; and where the next piece would start, with its lines. -/
def Cut.sums (o : Options) (f : Fragment) (lines : List (List Char)) (cut : Cut) (i : Nat)
    (line : List Char) : List Nat :=
  let added := if i = cut.start then line.length else line.length + 1
  let carried := max (i - o.overlapLines) (cut.start + 1)
  let repeated := joinedLength (window lines carried i)
  [added, cut.size + added, f.startLine + cut.start, f.startLine + max (i - 1) cut.start,
    carried, repeated, repeated + line.length + 1]

/-- What is added up for the last piece: its lines, and the piece before it with its fresh lines. -/
def Cut.lastSums (f : Fragment) (lines : List (List Char)) (cut : Cut) : List Nat :=
  let fresh := Text.joinLines (lines.drop cut.fresh)
  [f.startLine + cut.start, f.startLine + max (lines.length - 1) cut.start] ++
    cut.pieces.head?.toList.map fun before => before.content.length + 1 + fresh.length

/-- All that is added up for the fragments of a source fits into 64 bits. -/
structure SumsFit (o : Options) (source : List Char) (tree : Syntax.Tree) : Prop where
  line : ∀ f ∈ fragments source tree, ∀ i cut line,
    Cut.Reached o f (pieceLines f.content) i cut → (pieceLines f.content)[i]? = some line →
    ∀ n ∈ cut.sums o f (pieceLines f.content) i line, n < sizeBound
  last : ∀ f ∈ fragments source tree,
    ∀ n ∈ (Cut.all o f (pieceLines f.content)).lastSums f (pieceLines f.content), n < sizeBound
  /-- A fragment is added to another one only if this is small. -/
  joined : ∀ a : Fragment, a.content.length < mergeThreshold →
    ∀ b ∈ (fragments source tree).flatMap (pieces o),
      a.content.length + 1 + b.content.length < sizeBound

/-! ### Parts of lines -/

theorem total_le_of_sublist {α : Type} (g : α → Nat) {as bs : List α} (h : as.Sublist bs) :
    Numeric.total g as ≤ Numeric.total g bs := by
  induction h with
  | slnil => exact Nat.le_refl _
  | cons b _ ih =>
    rw [Numeric.total_cons]
    omega
  | cons_cons b _ ih =>
    rw [Numeric.total_cons, Numeric.total_cons]
    omega

theorem joinedLength_le_of_sublist {as bs : List (List Char)} (h : as.Sublist bs) :
    joinedLength as ≤ joinedLength bs := by
  have htotal := total_le_of_sublist List.length h
  have hlength := h.length_le
  unfold joinedLength
  omega

theorem window_sublist (lines : List (List Char)) (start stop : Nat) :
    (window lines start stop).Sublist lines :=
  (List.take_sublist _ _).trans (List.drop_sublist _ _)

theorem joinedLength_pieceLines_le (cs : List Char) : joinedLength (pieceLines cs) ≤ cs.length := by
  have hprefix := joinedLength_le_of_sublist (pieceLines_isPrefix cs).sublist
  rwa [← length_joinLines (Text.splitLines cs), Text.joinLines_splitLines] at hprefix

theorem length_le_joinedLength (h : line ∈ lines) : line.length ≤ joinedLength lines := by
  have hsingle := joinedLength_le_of_sublist (List.singleton_sublist.2 h)
  rwa [← length_joinLines [line], Text.joinLines_singleton] at hsingle

theorem length_piece_le (f : Fragment) (lines : List (List Char)) (start stop : Nat) :
    (piece f lines start stop).content.length ≤ joinedLength lines := by
  show (Text.joinLines (window lines start stop)).length ≤ joinedLength lines
  rw [length_joinLines]
  exact joinedLength_le_of_sublist (window_sublist lines start stop)

namespace Cut.Reached

variable (hfree : ∀ line ∈ lines, '\n' ∉ line)
include hfree

theorem sound (h : cut.Reached o f lines i) : cut.Sound o lines i := by
  induction h with
  | start => exact sound_start o lines
  | add _ hline ih => exact ih.add hfree hline

theorem length_le (h : cut.Reached o f lines i) :
    ∀ p ∈ cut.pieces, p.content.length ≤ joinedLength lines := by
  induction h with
  | start => exact fun p hp => absurd hp List.not_mem_nil
  | @add i line cut reached hline ih =>
    rcases (reached.sound hfree).add_cases f hline with ⟨-, hadd⟩ | ⟨-, -, hadd⟩
    · rw [hadd]
      exact ih
    · rw [hadd]
      intro p hp
      rcases List.mem_cons.1 hp with rfl | hp
      · exact length_piece_le f lines _ _
      · exact ih p hp

/-- What is added up for a line is at most twice the lines, or a line of the source. -/
theorem le_of_mem_sums (h : cut.Reached o f lines i) (hline : lines[i]? = some line)
    (hn : n ∈ cut.sums o f lines i line) :
    n ≤ 2 * joinedLength lines + 1 ∨ n ≤ f.startLine + lines.length := by
  have hsound := h.sound hfree
  have hsize : cut.size ≤ joinedLength lines := by
    rw [hsound.size_eq]
    exact joinedLength_le_of_sublist (window_sublist lines _ _)
  have hlength := length_le_joinedLength (List.mem_of_getElem? hline)
  have hi := (List.getElem?_eq_some_iff.1 hline).1
  have hstart := Nat.le_trans hsound.start_le hsound.fresh_le
  have hrepeated := joinedLength_le_of_sublist
    (window_sublist lines (max (i - o.overlapLines) (cut.start + 1)) i)
  simp only [Cut.sums, List.mem_cons, List.not_mem_nil, or_false] at hn
  rcases hn with rfl | rfl | rfl | rfl | rfl | rfl | rfl
  · split <;> omega
  · split <;> omega
  all_goals omega

end Cut.Reached

theorem Cut.reached_all (o : Options) (f : Fragment) (lines : List (List Char)) :
    (Cut.all o f lines).Reached o f lines lines.length :=
  Cut.all_induction .start fun hline reached => reached.add hline

theorem le_of_mem_lastSums (hfree : ∀ line ∈ lines, '\n' ∉ line)
    (hn : n ∈ (Cut.all o f lines).lastSums f lines) :
    n ≤ 2 * joinedLength lines + 1 ∨ n ≤ f.startLine + lines.length := by
  have hreached := Cut.reached_all o f lines
  have hsound := hreached.sound hfree
  have hstart := Nat.le_trans hsound.start_le hsound.fresh_le
  have hfresh : (Text.joinLines (lines.drop (Cut.all o f lines).fresh)).length ≤
      joinedLength lines := by
    rw [length_joinLines]
    exact joinedLength_le_of_sublist (List.drop_sublist _ _)
  simp only [Cut.lastSums, List.mem_append, List.mem_cons, List.not_mem_nil, or_false,
    List.mem_map, Option.mem_toList] at hn
  rcases hn with (rfl | rfl) | ⟨before, hbefore, rfl⟩
  · right
    omega
  · right
    omega
  · left
    have hlength := hreached.length_le hfree before (List.mem_of_head? hbefore)
    omega

/-! ### Fragments of a source -/

section

variable (hplaced : f.Placed source)
include hplaced

theorem Fragment.Placed.length_le : f.content.length ≤ source.length := by
  obtain ⟨before, after, hsource, -⟩ := hplaced.part
  rw [hsource, List.length_append, List.length_append]
  omega

theorem Fragment.Placed.startLine_add_le :
    f.startLine + (pieceLines f.content).length ≤ source.length + 2 := by
  obtain ⟨before, after, hsource, hstart⟩ := hplaced.part
  have hlines := length_pieceLines_le f.content
  have hbefore : Text.newlines before ≤ before.length := List.count_le_length
  have hcontent : Text.newlines f.content ≤ f.content.length := List.count_le_length
  rw [hsource, List.length_append, List.length_append]
  omega

end

theorem length_le_of_mem_pieces (hp : p ∈ pieces o f) : p.content.length ≤ f.content.length := by
  rcases mem_pieces hp with ⟨rfl, -⟩ | ⟨-, w, -, -, rfl⟩
  · exact Nat.le_refl _
  · exact Nat.le_trans (length_piece_le f _ _ _) (joinedLength_pieceLines_le _)

theorem sumsFit (o : Options) (tree : Syntax.Tree) (hsource : source.length < textBound) :
    SumsFit o source tree := by
  have hfits : ∀ f ∈ fragments source tree, ∀ n,
      n ≤ 2 * joinedLength (pieceLines f.content) + 1 ∨
        n ≤ f.startLine + (pieceLines f.content).length → n < sizeBound := by
    intro f hf n hn
    have hplaced := placed_of_mem_fragments hf
    have hlength := Nat.le_trans (joinedLength_pieceLines_le f.content) hplaced.length_le
    have hlines := hplaced.startLine_add_le
    unfold textBound at hsource
    unfold sizeBound
    omega
  refine ⟨fun f hf i cut line reached hline n hn => ?_, fun f hf n hn => ?_, fun a ha b hb => ?_⟩
  · exact hfits f hf n (reached.le_of_mem_sums newline_not_mem_of_mem_pieceLines hline hn)
  · exact hfits f hf n (le_of_mem_lastSums newline_not_mem_of_mem_pieceLines hn)
  · obtain ⟨f, hf, hpiece⟩ := List.mem_flatMap.1 hb
    have hlength := Nat.le_trans (length_le_of_mem_pieces hpiece)
      (placed_of_mem_fragments hf).length_le
    unfold mergeThreshold at ha
    unfold textBound at hsource
    unfold sizeBound
    omega

end CodeIndex.Chunk
