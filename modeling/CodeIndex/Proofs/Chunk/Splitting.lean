import CodeIndex.Chunk.Splitting
import CodeIndex.Proofs.Text.Lines

/-! Splitting a fragment keeps each of its lines and bounds its pieces.  While lines are taken one
after another, the size that is kept is the length of the piece under way, and the lines that are
not in the piece are in an earlier one. -/

namespace CodeIndex.Chunk

variable {o : Options} {f p : Fragment} {lines : List (List Char)} {line : List Char}
  {start i limit : Nat} {cut : Cut}

/-! ### Lengths of joined lines -/

theorem joinedLength_cons (line next : List Char) (lines : List (List Char)) :
    joinedLength (line :: next :: lines) = line.length + 1 + joinedLength (next :: lines) := by
  simp only [joinedLength, Numeric.total_cons, List.length_cons]
  omega

theorem length_joinLines (lines : List (List Char)) :
    (Text.joinLines lines).length = joinedLength lines := by
  induction lines with
  | nil => rfl
  | cons line rest ih =>
    cases rest with
    | nil => simp [joinedLength, Numeric.total_cons, Numeric.total_nil]
    | cons next rest =>
      rw [Text.joinLines_cons, joinedLength_cons, List.length_append, List.length_cons, ih]
      omega

theorem joinedLength_concat (lines : List (List Char)) (line : List Char) :
    joinedLength (lines ++ [line]) =
      joinedLength lines + if lines = [] then line.length else line.length + 1 := by
  cases lines with
  | nil => simp [joinedLength, Numeric.total_cons, Numeric.total_nil]
  | cons first rest =>
    rw [if_neg (List.cons_ne_nil _ _)]
    simp only [joinedLength, Numeric.total_append, Numeric.total_cons, Numeric.total_nil,
      List.length_append, List.length_cons, List.length_nil]
    omega

/-! ### Windows -/

theorem length_window (lines : List (List Char)) (start stop : Nat) :
    (window lines start stop).length = min (stop - start) (lines.length - start) := by
  rw [window, List.length_take, List.length_drop]

theorem window_self (lines : List (List Char)) (start : Nat) : window lines start start = [] := by
  rw [window, Nat.sub_self, List.take_zero]

theorem window_ne_nil (hstart : start < i) (hi : i ≤ lines.length) : window lines start i ≠ [] := by
  apply List.ne_nil_of_length_pos
  rw [length_window]
  omega

theorem mem_of_mem_window {stop : Nat} (h : line ∈ window lines start stop) : line ∈ lines :=
  List.mem_of_mem_drop (List.mem_of_mem_take h)

theorem window_succ (hstart : start ≤ i) (hline : lines[i]? = some line) :
    window lines start (i + 1) = window lines start i ++ [line] := by
  have hcount : i + 1 - start = i - start + 1 := by omega
  have hindex : start + (i - start) = i := by omega
  rw [window, hcount, List.take_add_one, List.getElem?_drop, hindex, hline]
  rfl

theorem take_eq_append_window (hstart : start ≤ i) :
    lines.take i = lines.take start ++ window lines start i := by
  have hsum : i = start + (i - start) := by omega
  rw [window, ← List.take_add, ← hsum]

theorem window_append {mid stop : Nat} (hstart : start ≤ mid) (hmid : mid ≤ stop) :
    window lines start stop = window lines start mid ++ window lines mid stop := by
  have hlength : stop - start = (mid - start) + (stop - mid) := by omega
  have hdrop : (lines.drop start).drop (mid - start) = lines.drop mid := by
    rw [List.drop_drop, Nat.add_sub_cancel' hstart]
  rw [window, hlength, List.take_add, hdrop]
  rfl

theorem joinedLength_window_succ (hstart : start ≤ i) (hline : lines[i]? = some line) :
    joinedLength (window lines start (i + 1)) =
      joinedLength (window lines start i) +
        if i = start then line.length else line.length + 1 := by
  rw [window_succ hstart hline, joinedLength_concat]
  by_cases hi : i = start
  · subst hi
    rw [window_self, if_pos rfl, if_pos rfl]
  · have hlength : i < lines.length := (List.getElem?_eq_some_iff.1 hline).1
    rw [if_neg hi, if_neg (window_ne_nil (by omega) (by omega))]

/-! ### Where pieces start -/

/-- The lines from one line to another, this one included, are not too large for a piece. -/
def HasRoom (o : Options) (lines : List (List Char)) (start i : Nat) : Prop :=
  joinedLength (window lines start (i + 1)) ≤ o.maxSize

instance (o : Options) (lines : List (List Char)) (start i : Nat) :
    Decidable (HasRoom o lines start i) :=
  inferInstanceAs (Decidable (_ ≤ _))

/-- Where the piece after a cut starts: with the overlap, but not as far up as the piece before the cut,
or with the line after the cut where the overlap leaves no room for it. -/
def carriedFrom (o : Options) (lines : List (List Char)) (start cut : Nat) : Nat :=
  let carried := max (cut - o.overlapLines) (start + 1)
  if HasRoom o lines carried cut then carried else cut

theorem lt_carriedFrom (h : start < i) : start < carriedFrom o lines start i := by
  unfold carriedFrom
  dsimp only
  split <;> omega

theorem carriedFrom_le (h : start < i) : carriedFrom o lines start i ≤ i := by
  unfold carriedFrom
  dsimp only
  split <;> omega

theorem hasRoom_carriedFrom (o : Options) (lines : List (List Char)) (start i : Nat) :
    HasRoom o lines (carriedFrom o lines start i) i ∨ carriedFrom o lines start i = i := by
  unfold carriedFrom
  dsimp only
  split
  next hroom => exact .inl hroom
  next => exact .inr rfl

/-! ### Pieces -/

variable (hfree : ∀ line ∈ lines, '\n' ∉ line)
include hfree

theorem splitLines_piece {stop : Nat} (hstart : start < stop) (hstop : stop ≤ lines.length) :
    Text.splitLines (piece f lines start stop).content = window lines start stop :=
  Text.splitLines_joinLines (window_ne_nil hstart hstop) fun line hline =>
    hfree line (mem_of_mem_window hline)

/-- A piece of at most one line has no line feed. -/
theorem not_mem_piece {stop : Nat} (hstop : stop ≤ start + 1) :
    '\n' ∉ (piece f lines start stop).content := by
  have hlength : (window lines start stop).length ≤ 1 := by
    rw [length_window]
    omega
  show '\n' ∉ Text.joinLines (window lines start stop)
  match h : window lines start stop with
  | [] => exact List.not_mem_nil
  | [line] =>
    rw [Text.joinLines_singleton]
    exact hfree line (mem_of_mem_window (h ▸ List.mem_singleton_self line))
  | _ :: _ :: _ =>
    rw [h] at hlength
    simp at hlength

omit hfree

/-- What holds of the piece under way after the first `i` lines. -/
structure Cut.Sound (o : Options) (lines : List (List Char)) (i : Nat) (cut : Cut) : Prop where
  start_le : cut.start ≤ cut.fresh
  fresh_le : cut.fresh ≤ i
  fresh_lt : 0 < i → cut.fresh < i
  size_eq : cut.size = joinedLength (window lines cut.start i)
  /-- There is room for the lines, unless there is only one. -/
  room : cut.size ≤ o.maxSize ∨ i ≤ cut.start + 1
  /-- The lines that are not fresh are in the pieces before. -/
  covered : ∀ line ∈ lines.take cut.fresh, ∃ p ∈ cut.pieces, line ∈ Text.splitLines p.content
  bounded : ∀ p ∈ cut.pieces, p.content.length ≤ o.maxSize ∨ '\n' ∉ p.content

namespace Cut

theorem sound_start (o : Options) (lines : List (List Char)) :
    Sound o lines 0 ⟨0, 0, 0, []⟩ where
  start_le := Nat.le_refl _
  fresh_le := Nat.le_refl _
  fresh_lt := fun h => h
  size_eq := by rw [window_self]; rfl
  room := .inl (Nat.zero_le _)
  covered := fun line hline => absurd hline List.not_mem_nil
  bounded := fun p hp => absurd hp List.not_mem_nil

theorem Sound.keep (h : cut.Sound o lines i) (hroom : cut.fresh < i → HasRoom o lines cut.start i) :
    Sound o lines (i + 1) { cut with size := joinedLength (window lines cut.start (i + 1)) } where
  start_le := h.start_le
  fresh_le := Nat.le_succ_of_le h.fresh_le
  fresh_lt := fun _ => Nat.lt_succ_of_le h.fresh_le
  size_eq := rfl
  room := by
    by_cases hi : 0 < i
    · exact .inl (hroom (h.fresh_lt hi))
    · -- The first line is taken whether there is room or not.
      right
      omega
  covered := h.covered
  bounded := h.bounded

/-- The lines before a new piece are in the pieces with the one that ends there. -/
theorem Sound.covered_take (h : cut.Sound o lines i) (hfree : ∀ line ∈ lines, '\n' ∉ line)
    (hfresh : cut.fresh < i) (hi : i ≤ lines.length) (hmem : line ∈ lines.take i) :
    ∃ p ∈ piece f lines cut.start i :: cut.pieces, line ∈ Text.splitLines p.content := by
  have hstart : cut.start < i := Nat.lt_of_le_of_lt h.start_le hfresh
  rw [take_eq_append_window (Nat.le_of_lt hstart)] at hmem
  rcases List.mem_append.1 hmem with hearlier | hwindow
  · have htake : line ∈ lines.take cut.fresh :=
      (List.take_prefix_take_left h.start_le).subset hearlier
    obtain ⟨p, hp, hmem⟩ := h.covered line htake
    exact ⟨p, List.mem_cons_of_mem _ hp, hmem⟩
  · refine ⟨_, List.mem_cons_self, ?_⟩
    rw [splitLines_piece hfree hstart hi]
    exact hwindow

theorem Sound.bounded_piece (h : cut.Sound o lines i) (hfree : ∀ line ∈ lines, '\n' ∉ line) :
    (piece f lines cut.start i).content.length ≤ o.maxSize ∨
      '\n' ∉ (piece f lines cut.start i).content := by
  rcases h.room with hsize | hstop
  · left
    rw [h.size_eq, ← length_joinLines] at hsize
    exact hsize
  · exact .inr (not_mem_piece hfree hstop)

/-- A line that starts a new piece, with some of the lines before it or without. -/
theorem Sound.restart (h : cut.Sound o lines i) (hfree : ∀ line ∈ lines, '\n' ∉ line)
    (hi : i ≤ lines.length) (hfresh : cut.fresh < i) :
    Sound o lines (i + 1)
      ⟨carriedFrom o lines cut.start i, i,
        joinedLength (window lines (carriedFrom o lines cut.start i) (i + 1)),
        piece f lines cut.start i :: cut.pieces⟩ where
  start_le := carriedFrom_le (Nat.lt_of_le_of_lt h.start_le hfresh)
  fresh_le := Nat.le_succ i
  fresh_lt := fun _ => Nat.lt_succ_self i
  size_eq := rfl
  room := (hasRoom_carriedFrom o lines cut.start i).imp_right fun hi => Nat.le_of_eq (by rw [hi])
  covered := fun line hmem => h.covered_take hfree hfresh hi hmem
  bounded := fun p hp => by
    rcases List.mem_cons.1 hp with rfl | hp
    · exact h.bounded_piece hfree
    · exact h.bounded p hp

/-- Whether there is room can be told from the length of the overlap and that of the line that the piece
is for. -/
theorem restart_eq (hline : lines[i]? = some line) (hlt : start < i) (done : List Fragment) :
    (let carried := max (i - o.overlapLines) (start + 1)
      let size := joinedLength (window lines carried i)
      if o.maxSize < size + line.length + 1 then (⟨i, i, line.length, done⟩ : Cut)
      else ⟨carried, i, size + (if i = carried then line.length else line.length + 1), done⟩) =
    ⟨carriedFrom o lines start i, i,
      joinedLength (window lines (carriedFrom o lines start i) (i + 1)), done⟩ := by
  have hself : joinedLength (window lines i (i + 1)) = line.length := by
    rw [joinedLength_window_succ (Nat.le_refl i) hline, window_self, if_pos rfl]
    exact Nat.zero_add _
  unfold carriedFrom
  dsimp only
  generalize hcarried : max (i - o.overlapLines) (start + 1) = carried
  have hsucc := joinedLength_window_succ (show carried ≤ i by omega) hline
  by_cases hi : i = carried
  · -- nothing is repeated, whether there is room or not
    subst hi
    have hnone : joinedLength (window lines i i) = 0 := by
      rw [window_self]
      rfl
    simp only [ite_self, hself, hnone, if_true, Nat.zero_add]
  · rw [if_neg hi] at hsucc
    rw [if_neg hi, ← hsucc, Nat.add_assoc, ← hsucc]
    by_cases hroom : HasRoom o lines carried i
    · rw [if_pos hroom, if_neg (Nat.not_lt.2 hroom)]
    · rw [if_neg hroom, if_pos (Nat.lt_of_not_le hroom), hself]

/-- What taking a line can do: it goes into the piece under way, or it starts a new one. -/
theorem Sound.add_cases (h : cut.Sound o lines i) (f : Fragment) (hline : lines[i]? = some line) :
    ((cut.fresh < i → HasRoom o lines cut.start i) ∧
      cut.add o f lines i line =
        { cut with size := joinedLength (window lines cut.start (i + 1)) }) ∨
    (cut.fresh < i ∧ ¬HasRoom o lines cut.start i ∧
      cut.add o f lines i line =
        ⟨carriedFrom o lines cut.start i, i,
          joinedLength (window lines (carriedFrom o lines cut.start i) (i + 1)),
          piece f lines cut.start i :: cut.pieces⟩) := by
  have hsize : joinedLength (window lines cut.start (i + 1)) =
      cut.size + if i = cut.start then line.length else line.length + 1 := by
    rw [joinedLength_window_succ (Nat.le_trans h.start_le h.fresh_le) hline, ← h.size_eq]
  unfold HasRoom
  rw [hsize]
  by_cases hfull : cut.fresh < i ∧
      o.maxSize < cut.size + if i = cut.start then line.length else line.length + 1
  · right
    refine ⟨hfull.1, Nat.not_le.2 hfull.2, ?_⟩
    rw [Cut.add, if_pos hfull]
    exact restart_eq hline (Nat.lt_of_le_of_lt h.start_le hfull.1) _
  · left
    refine ⟨fun hfresh => Nat.le_of_not_lt fun hlarge => hfull ⟨hfresh, hlarge⟩, ?_⟩
    rw [Cut.add, if_neg hfull]

theorem Sound.add (h : cut.Sound o lines i) (hfree : ∀ line ∈ lines, '\n' ∉ line)
    (hline : lines[i]? = some line) : (cut.add o f lines i line).Sound o lines (i + 1) := by
  rcases h.add_cases f hline with ⟨hroom, hadd⟩ | ⟨hfresh, -, hadd⟩
  · rw [hadd]
    exact h.keep hroom
  · rw [hadd]
    exact h.restart hfree (Nat.le_of_lt (List.getElem?_eq_some_iff.1 hline).1) hfresh

/-- The pieces after all lines are taken, one line after another. -/
def all (o : Options) (f : Fragment) (lines : List (List Char)) : Cut :=
  lines.zipIdx.foldl (fun cut l => cut.add o f lines l.2 l.1) ⟨0, 0, 0, []⟩

/-- What holds before the first line and outlasts each line holds in the end. -/
theorem all_induction {motive : Nat → Cut → Prop} (hstart : motive 0 ⟨0, 0, 0, []⟩)
    (hadd : ∀ {i line cut}, lines[i]? = some line → motive i cut →
      motive (i + 1) (cut.add o f lines i line)) : motive lines.length (all o f lines) := by
  have hrest : ∀ (rest before : List (List Char)) (cut : Cut), lines = before ++ rest →
      motive before.length cut → motive lines.length
        ((rest.zipIdx before.length).foldl (fun cut l => cut.add o f lines l.2 l.1) cut) := by
    intro rest
    induction rest with
    | nil =>
      intro before cut hlines hcut
      rw [hlines, List.append_nil]
      exact hcut
    | cons line rest ih =>
      intro before cut hlines hcut
      have hline : lines[before.length]? = some line := by
        rw [hlines, List.getElem?_append_right (Nat.le_refl _), Nat.sub_self]
        rfl
      have hlength : (before ++ [line]).length = before.length + 1 := by
        rw [List.length_append, List.length_singleton]
      rw [List.zipIdx_cons, List.foldl_cons, ← hlength]
      refine ih (before ++ [line]) _ ?_ ?_
      · rw [hlines, List.append_assoc]
        rfl
      · rw [hlength]
        exact hadd hline hcut
  exact hrest lines [] _ rfl hstart

theorem sound_all (hfree : ∀ line ∈ lines, '\n' ∉ line) :
    (all o f lines).Sound o lines lines.length :=
  all_induction (sound_start o lines) fun hline hsound => hsound.add hfree hline

/-- How the last piece ends: its fresh lines go to the piece before, or it stands by itself. -/
theorem finish_cases (limit : Nat) (f : Fragment) (lines : List (List Char)) (cut : Cut) :
    (∃ before earlier, cut.pieces = before :: earlier ∧
      before.content.length + 1 + (Text.joinLines (lines.drop cut.fresh)).length < limit ∧
      cut.finish limit f lines =
        ({ before with
            content := before.content ++ '\n' :: Text.joinLines (lines.drop cut.fresh)
            endLine := (piece f lines cut.start lines.length).endLine } :: earlier).reverse) ∨
    cut.finish limit f lines = (piece f lines cut.start lines.length :: cut.pieces).reverse := by
  unfold finish
  dsimp only
  split
  next hpieces =>
    right
    rw [hpieces, List.reverse_singleton]
  next before earlier hpieces =>
    rw [hpieces]
    split
    next hsmall =>
      left
      exact ⟨before, earlier, rfl, hsmall.2, rfl⟩
    next =>
      right
      rfl

theorem Sound.finish_covers (h : cut.Sound o lines lines.length)
    (hfree : ∀ line ∈ lines, '\n' ∉ line) (hline : line ∈ lines) :
    ∃ p ∈ cut.finish limit f lines, line ∈ Text.splitLines p.content := by
  have hfresh : cut.fresh < lines.length := h.fresh_lt (List.length_pos_of_mem hline)
  rcases finish_cases limit f lines cut with ⟨before, earlier, hpieces, -, hfinish⟩ | hfinish
  · have hlast : Text.splitLines (Text.joinLines (lines.drop cut.fresh)) =
        lines.drop cut.fresh := by
      apply Text.splitLines_joinLines
      · apply List.ne_nil_of_length_pos
        rw [List.length_drop]
        omega
      · exact fun line hline => hfree line (List.mem_of_mem_drop hline)
    simp only [hfinish, List.mem_reverse]
    -- The piece that takes the fresh lines in keeps those that it had.
    rw [← List.take_append_drop cut.fresh lines] at hline
    rcases List.mem_append.1 hline with htake | hdrop
    · obtain ⟨p, hp, hmem⟩ := h.covered line htake
      rw [hpieces] at hp
      rcases List.mem_cons.1 hp with rfl | hp
      · refine ⟨_, List.mem_cons_self, ?_⟩
        rw [Text.splitLines_append_newline]
        exact List.mem_append_left _ hmem
      · exact ⟨p, List.mem_cons_of_mem _ hp, hmem⟩
    · refine ⟨_, List.mem_cons_self, ?_⟩
      rw [Text.splitLines_append_newline, hlast]
      exact List.mem_append_right _ hdrop
  · simp only [hfinish, List.mem_reverse]
    apply h.covered_take hfree hfresh (Nat.le_refl _)
    rw [List.take_length]
    exact hline

end Cut

/-! ### Bounds -/

/-- The content is not too large, or there is only one line of it. -/
def Fragment.Bounded (o : Options) (f : Fragment) : Prop :=
  f.content.length ≤ o.maxSize ∨ f.content.length < o.maxSize * 3 / 2 ∨ '\n' ∉ f.content

theorem Cut.Sound.finish_bounded (h : cut.Sound o lines lines.length)
    (hfree : ∀ line ∈ lines, '\n' ∉ line) (hlimit : limit ≤ o.maxSize * 3 / 2)
    (hp : p ∈ cut.finish limit f lines) : p.Bounded o := by
  have hpiece : ∀ q ∈ cut.pieces, q.Bounded o := fun q hq => (h.bounded q hq).imp_right .inr
  rcases finish_cases limit f lines cut with
    ⟨before, earlier, hpieces, hsize, hfinish⟩ | hfinish
  · rw [hfinish, List.mem_reverse] at hp
    rcases List.mem_cons.1 hp with rfl | hp
    · right
      left
      rw [List.length_append, List.length_cons]
      omega
    · apply hpiece
      rw [hpieces]
      exact List.mem_cons_of_mem _ hp
  · rw [hfinish, List.mem_reverse] at hp
    rcases List.mem_cons.1 hp with rfl | hp
    · exact (h.bounded_piece hfree).imp_right .inr
    · exact hpiece p hp

/-! ### Splitting -/

theorem mem_splitLines_of_mem_pieceLines {content : List Char} (h : line ∈ pieceLines content) :
    line ∈ Text.splitLines content := by
  unfold pieceLines at h
  dsimp only at h
  split at h
  · exact List.dropLast_subset _ h
  · exact h

/-- Only an empty line can be left out. -/
theorem mem_pieceLines {content : List Char} (h : line ∈ Text.splitLines content)
    (hne : line ≠ []) : line ∈ pieceLines content := by
  unfold pieceLines
  dsimp only
  split
  next hlast =>
    obtain ⟨earlier, hsplit⟩ := List.getLast?_eq_some_iff.1 hlast.2
    rw [hsplit] at h ⊢
    rw [List.dropLast_concat]
    rcases List.mem_append.1 h with hmem | hmem
    · exact hmem
    · exact absurd (List.mem_singleton.1 hmem) hne
  next => exact h

theorem newline_not_mem_of_mem_pieceLines {content : List Char} :
    ∀ line ∈ pieceLines content, '\n' ∉ line :=
  fun _ hline => Text.not_mem_of_mem_splitLines (mem_splitLines_of_mem_pieceLines hline)

theorem cutUp_eq (o : Options) (limit : Nat) (f : Fragment) :
    cutUp o limit f =
      ((Cut.all o f (pieceLines f.content)).finish limit f (pieceLines f.content)).filter
        fun p => !p.content.isEmpty := rfl

/-- The pieces of a fragment, with one and a half times the size as the limit for the last one. -/
def pieces (o : Options) (f : Fragment) : List Fragment :=
  if f.content.length ≤ o.maxSize then [f] else cutUp o (o.maxSize * 3 / 2) f

theorem pieces_of_le (h : f.content.length ≤ o.maxSize) : pieces o f = [f] := if_pos h

theorem pieces_of_lt (h : o.maxSize < f.content.length) :
    pieces o f = cutUp o (o.maxSize * 3 / 2) f := if_neg (Nat.not_le.2 h)

theorem sizeProduct_of_lt {a b : Nat} (h : a * b < sizeBound) : sizeProduct a b = .ok (a * b) :=
  if_pos h

theorem sizeProduct_of_le {a b : Nat} (h : sizeBound ≤ a * b) :
    sizeProduct a b = .error .overflow := if_neg (Nat.not_lt.2 h)

theorem foldLimit_of_lt (h : o.maxSize * 3 < sizeBound) : o.foldLimit = .ok (o.maxSize * 3 / 2) := by
  rw [Options.foldLimit, sizeProduct_of_lt h]
  rfl

theorem foldLimit_of_le (h : sizeBound ≤ o.maxSize * 3) : o.foldLimit = .error .overflow := by
  rw [Options.foldLimit, sizeProduct_of_le h]
  rfl

/-- Splitting gives the pieces, unless the limit does not fit and is needed. -/
theorem split_eq (h : o.maxSize * 3 < sizeBound) (f : Fragment) : split o f = .ok (pieces o f) := by
  rw [split, foldLimit_of_lt h, pieces]
  split <;> rfl

/-- Splitting keeps each line that is not empty. -/
theorem pieces_covers (h : line ∈ Text.splitLines f.content) (hne : line ≠ []) :
    ∃ p ∈ pieces o f, line ∈ Text.splitLines p.content := by
  by_cases hsize : f.content.length ≤ o.maxSize
  · rw [pieces_of_le hsize]
    exact ⟨f, List.mem_singleton_self f, h⟩
  · obtain ⟨p, hp, hmem⟩ := (Cut.sound_all (o := o) newline_not_mem_of_mem_pieceLines).finish_covers
      (f := f) newline_not_mem_of_mem_pieceLines (mem_pieceLines h hne)
    rw [pieces_of_lt (Nat.not_le.1 hsize), cutUp_eq]
    refine ⟨p, List.mem_filter.2 ⟨hp, ?_⟩, hmem⟩
    cases hcontent : p.content with
    | nil =>
      rw [hcontent] at hmem
      exact absurd (List.mem_singleton.1 hmem) hne
    | cons c rest => rfl

theorem pieces_bounded (hp : p ∈ pieces o f) : p.Bounded o := by
  by_cases hsize : f.content.length ≤ o.maxSize
  · rw [pieces_of_le hsize] at hp
    rw [List.mem_singleton.1 hp]
    exact .inl hsize
  · rw [pieces_of_lt (Nat.not_le.1 hsize), cutUp_eq] at hp
    exact (Cut.sound_all newline_not_mem_of_mem_pieceLines).finish_bounded
      newline_not_mem_of_mem_pieceLines (Nat.le_refl _) (List.mem_filter.1 hp).1

end CodeIndex.Chunk
