import CodeIndex.Proofs.Chunk.Splitting
import Mathlib.Data.List.Chain

/-! Where a large fragment is cut.  Each part takes lines as long as there is room for them, and at least
one.  It repeats the last lines of the part before it if these leave room for its first line of its own;
it never repeats all of them.  A last part that is small is taken in by the one before it. -/

namespace CodeIndex.Chunk

/-- A part of the lines: the line that it starts with, the first line that is not repeated, and the
line after its last. -/
structure Part where
  start : Nat
  fresh : Nat
  stop : Nat

variable {o : Options} {f : Fragment} {lines : List (List Char)} {line : List Char} {i limit : Nat}
  {cut : Cut} {p last : Part} {ps earlier : List Part}

def Part.piece (f : Fragment) (lines : List (List Char)) (p : Part) : Fragment :=
  Chunk.piece f lines p.start p.stop

/-- A part has a line of its own, and room for each of its own lines but the first. -/
structure Part.Filled (o : Options) (lines : List (List Char)) (p : Part) : Prop where
  start_le : p.start ≤ p.fresh
  fresh_lt : p.fresh < p.stop
  room : ∀ i, p.fresh < i → i < p.stop → HasRoom o lines p.start i

/-- One part after another: the first has no room for the next line. -/
structure Follows (o : Options) (lines : List (List Char)) (a b : Part) : Prop where
  full : ¬HasRoom o lines a.start a.stop
  fresh_eq : b.fresh = a.stop
  start_eq : b.start = carriedFrom o lines a.start a.stop

/-- The parts of all lines, from the first to the last. -/
structure Cutting (o : Options) (lines : List (List Char)) (ps : List Part) : Prop where
  filled : ∀ p ∈ ps, p.Filled o lines
  chain : ps.IsChain (Follows o lines)
  first : ps.head?.map (fun p => (p.start, p.fresh)) = some (0, 0)
  last : ps.getLast?.map Part.stop = some lines.length

/-- The piece of a part that takes in the lines of its own of the next. -/
def Part.pieceWith (f : Fragment) (lines : List (List Char)) (p next : Part) : Fragment :=
  { p.piece f lines with
    content := (p.piece f lines).content ++ '\n' :: Text.joinLines (window lines next.fresh next.stop)
    endLine := (next.piece f lines).endLine }

/-- The last piece is small, and its own lines go to the piece before it as long as this stays below the
limit. -/
def TakesIn (limit : Nat) (f : Fragment) (lines : List (List Char)) (p last : Part) : Prop :=
  (last.piece f lines).content.length < smallRemainder ∧
    (p.piece f lines).content.length + 1 +
      (Text.joinLines (window lines last.fresh last.stop)).length < limit

instance (limit : Nat) (f : Fragment) (lines : List (List Char)) (p last : Part) :
    Decidable (TakesIn limit f lines p last) :=
  inferInstanceAs (Decidable (_ ∧ _))

/-- The pieces of parts, given as those before the last one and the last one. -/
def piecesOf (limit : Nat) (f : Fragment) (lines : List (List Char)) (earlier : List Part)
    (last : Part) : List Fragment :=
  match earlier.getLast? with
  | none => [last.piece f lines]
  | some before =>
    if TakesIn limit f lines before last then
      earlier.dropLast.map (Part.piece f lines) ++ [before.pieceWith f lines last]
    else (earlier ++ [last]).map (Part.piece f lines)

namespace Cut

/-! ### While lines are taken -/

/-- After some of the lines the pieces are those of parts, here the last one first; the part under way
is one more. -/
structure Cuts (o : Options) (f : Fragment) (lines : List (List Char)) (i : Nat) (cut : Cut)
    (ps : List Part) : Prop where
  pieces_eq : cut.pieces = ps.map (Part.piece f lines)
  filled : ∀ p ∈ ps, p.Filled o lines
  room : ∀ j, cut.fresh < j → j < i → HasRoom o lines cut.start j
  chain : (⟨cut.start, cut.fresh, i⟩ :: ps).IsChain fun b a => Follows o lines a b
  first : (⟨cut.start, cut.fresh, i⟩ :: ps).getLast?.map (fun p => (p.start, p.fresh)) = some (0, 0)

theorem cuts_start (o : Options) (f : Fragment) (lines : List (List Char)) :
    Cuts o f lines 0 ⟨0, 0, 0, []⟩ [] where
  pieces_eq := rfl
  filled _ h := absurd h List.not_mem_nil
  room _ _ h := absurd h (Nat.not_lt_zero _)
  chain := List.isChain_singleton _
  first := rfl

/-- The part under way gets one line longer. -/
theorem Cuts.keep (h : cut.Cuts o f lines i ps) (hroom : cut.fresh < i → HasRoom o lines cut.start i)
    (size : Nat) : Cuts o f lines (i + 1) { cut with size } ps where
  pieces_eq := h.pieces_eq
  filled := h.filled
  room j hfresh hj := by
    rcases Nat.lt_succ_iff_lt_or_eq.1 hj with hj | rfl
    · exact h.room j hfresh hj
    · exact hroom hfresh
  chain := by
    cases ps with
    | nil => exact List.isChain_singleton _
    | cons p ps =>
      obtain ⟨hfollows, hrest⟩ := List.isChain_cons_cons.1 h.chain
      exact List.isChain_cons_cons.2 ⟨⟨hfollows.full, hfollows.fresh_eq, hfollows.start_eq⟩, hrest⟩
  first := by
    have hfirst := h.first
    cases ps with
    | nil => exact hfirst
    | cons p ps =>
      rw [List.getLast?_cons_cons] at hfirst ⊢
      exact hfirst

/-- The part under way ends, and another one takes the line. -/
theorem Cuts.restart (h : cut.Cuts o f lines i ps) (hstart : cut.start ≤ cut.fresh)
    (hfresh : cut.fresh < i) (hfull : ¬HasRoom o lines cut.start i) (size : Nat) :
    Cuts o f lines (i + 1)
      ⟨carriedFrom o lines cut.start i, i, size, piece f lines cut.start i :: cut.pieces⟩
      (⟨cut.start, cut.fresh, i⟩ :: ps) where
  pieces_eq := by rw [h.pieces_eq]; rfl
  filled p hp := by
    rcases List.mem_cons.1 hp with rfl | hp
    · exact ⟨hstart, hfresh, h.room⟩
    · exact h.filled p hp
  room j hi hj := absurd hj (Nat.not_lt.2 hi)
  chain := List.isChain_cons_cons.2 ⟨⟨hfull, rfl, rfl⟩, h.chain⟩
  first := by
    rw [List.getLast?_cons_cons]
    exact h.first

theorem Cuts.add (h : cut.Cuts o f lines i ps) (hsound : cut.Sound o lines i)
    (hline : lines[i]? = some line) :
    ∃ ps', (cut.add o f lines i line).Cuts o f lines (i + 1) ps' := by
  rcases hsound.add_cases f hline with ⟨hroom, hadd⟩ | ⟨hfresh, hfull, hadd⟩
  · rw [hadd]
    exact ⟨ps, h.keep hroom _⟩
  · rw [hadd]
    exact ⟨_, h.restart hsound.start_le hfresh hfull _⟩

theorem Cuts.cutting (h : cut.Cuts o f lines lines.length ps)
    (hsound : cut.Sound o lines lines.length) (hpos : 0 < lines.length) :
    Cutting o lines (ps.reverse ++ [⟨cut.start, cut.fresh, lines.length⟩]) := by
  rw [← List.reverse_cons]
  constructor
  · intro p hp
    rcases List.mem_cons.1 (List.mem_reverse.1 hp) with rfl | hp
    · exact ⟨hsound.start_le, hsound.fresh_lt hpos, h.room⟩
    · exact h.filled p hp
  · exact List.isChain_reverse.2 h.chain
  · rw [List.head?_reverse]
    exact h.first
  · rw [List.getLast?_reverse]
    rfl

/-- How the last piece ends is decided by its length and that of the piece before. -/
theorem Cuts.finish (h : cut.Cuts o f lines lines.length ps) :
    cut.finish limit f lines =
      piecesOf limit f lines ps.reverse ⟨cut.start, cut.fresh, lines.length⟩ := by
  have hfresh : window lines cut.fresh lines.length = lines.drop cut.fresh := by
    rw [window]
    exact List.take_of_length_le (Nat.le_of_eq List.length_drop)
  unfold Cut.finish piecesOf
  -- the pieces so far stand in reverse order, so the piece before is the head of one list and the end
  -- of the other
  rw [h.pieces_eq, List.getLast?_reverse]
  cases ps with
  | nil => rfl
  | cons before ps =>
    rw [List.dropLast_reverse]
    simp only [List.map_cons, List.head?_cons, List.tail_cons]
    by_cases htakes : TakesIn limit f lines before ⟨cut.start, cut.fresh, lines.length⟩
    · have hpieces := htakes
      rw [TakesIn, hfresh] at hpieces
      rw [if_pos htakes]
      refine (if_pos hpieces).trans ?_
      rw [List.reverse_cons, ← List.map_reverse, Part.pieceWith, hfresh]
      rfl
    · have hpieces := htakes
      rw [TakesIn, hfresh] at hpieces
      rw [if_neg htakes]
      refine (if_neg hpieces).trans ?_
      rw [List.map_append, List.map_reverse, List.reverse_cons, List.map_cons]
      rfl

theorem exists_cuts (hfree : ∀ line ∈ lines, '\n' ∉ line) :
    (all o f lines).Sound o lines lines.length ∧
      ∃ ps, (all o f lines).Cuts o f lines lines.length ps :=
  all_induction (motive := fun i cut => cut.Sound o lines i ∧ ∃ ps, cut.Cuts o f lines i ps)
    ⟨sound_start o lines, [], cuts_start o f lines⟩ fun hline ⟨hsound, _, hcuts⟩ =>
      ⟨hsound.add hfree hline, hcuts.add hsound hline⟩

end Cut

/-! ### Splitting -/

theorem pieceLines_isPrefix (cs : List Char) : pieceLines cs <+: Text.splitLines cs := by
  unfold pieceLines
  dsimp only
  split
  · exact List.dropLast_prefix _
  · exact List.prefix_rfl

theorem pieceLines_ne_nil (cs : List Char) : pieceLines cs ≠ [] := by
  unfold pieceLines
  dsimp only
  split
  next hlast =>
    apply List.ne_nil_of_length_pos
    rw [List.length_dropLast]
    omega
  next => exact Text.splitLines_ne_nil cs

/-- The pieces of a large fragment are those of parts that cover its lines; only those without text
are left out. -/
theorem pieces_eq_piecesOf (h : o.maxSize < f.content.length) :
    ∃ earlier last, Cutting o (pieceLines f.content) (earlier ++ [last]) ∧
      pieces o f = (piecesOf (o.maxSize * 3 / 2) f (pieceLines f.content) earlier last).filter
        fun p => !p.content.isEmpty := by
  have hfree : ∀ line ∈ pieceLines f.content, '\n' ∉ line := newline_not_mem_of_mem_pieceLines
  obtain ⟨hsound, ps, hcuts⟩ := Cut.exists_cuts (o := o) (f := f) hfree
  refine ⟨_, _, hcuts.cutting hsound ?_, ?_⟩
  · exact List.length_pos_of_ne_nil (pieceLines_ne_nil _)
  · rw [pieces_of_lt h, cutUp_eq, hcuts.finish]

end CodeIndex.Chunk
