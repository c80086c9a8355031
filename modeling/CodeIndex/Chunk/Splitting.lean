import CodeIndex.Chunk.Fragment
import CodeIndex.Numeric.Power
import CodeIndex.Text.Lines

/-! Splitting a large fragment at its lines.  Each piece after the first repeats the last lines of
the piece before it, as far as there is room. -/

namespace CodeIndex.Chunk

def joinedLength (lines : List (List Char)) : Nat :=
  Numeric.total List.length lines + (lines.length - 1)

def window (lines : List (List Char)) (start stop : Nat) : List (List Char) :=
  (lines.drop start).take (stop - start)

/-- The lines of a fragment; a line feed at the end opens no new one. -/
def pieceLines (content : List Char) : List (List Char) :=
  let lines := Text.splitLines content
  if 1 < lines.length ∧ lines.getLast? = some [] then lines.dropLast else lines

/-- The piece of a fragment that holds some of its lines. -/
def piece (f : Fragment) (lines : List (List Char)) (start stop : Nat) : Fragment :=
  { f with
    id := 0
    content := Text.joinLines (window lines start stop)
    startLine := f.startLine + start
    endLine := f.startLine + max (stop - 1) start }

/-- A piece under way: the line that it starts with, the first line that is not repeated, its
length so far, and the pieces before it, the last one first. -/
structure Cut where
  start : Nat
  fresh : Nat
  size : Nat
  pieces : List Fragment

/-- Takes one more line into the piece under way, or starts a new piece with it. -/
def Cut.add (o : Options) (f : Fragment) (lines : List (List Char)) (cut : Cut) (i : Nat)
    (line : List Char) : Cut :=
  let added := if i = cut.start then line.length else line.length + 1
  if cut.fresh < i ∧ o.maxSize < cut.size + added then
    let done := piece f lines cut.start i :: cut.pieces
    let start := max (i - o.overlapLines) (cut.start + 1)
    let size := joinedLength (window lines start i)
    if o.maxSize < size + line.length + 1 then ⟨i, i, line.length, done⟩
    else
      ⟨start, i, size + (if i = start then line.length else line.length + 1), done⟩
  else { cut with size := cut.size + added }

/-- A last piece below this length is added to the piece before it. -/
def smallRemainder : Nat := 100

/-- The pieces in their order, the last one added to the piece before it if it is small and both stay
below the limit. -/
def Cut.finish (limit : Nat) (f : Fragment) (lines : List (List Char)) (cut : Cut) :
    List Fragment :=
  let last := piece f lines cut.start lines.length
  let fresh := Text.joinLines (lines.drop cut.fresh)
  match cut.pieces with
  | [] => [last]
  | before :: earlier =>
    if last.content.length < smallRemainder
        ∧ before.content.length + 1 + fresh.length < limit then
      ({ before with content := before.content ++ '\n' :: fresh, endLine := last.endLine }
        :: earlier).reverse
    else (last :: before :: earlier).reverse

/-- The pieces of a large fragment; those without text are dropped. -/
def cutUp (o : Options) (limit : Nat) (f : Fragment) : List Fragment :=
  let lines := pieceLines f.content
  let cut := lines.zipIdx.foldl
    (fun (cut : Cut) (l : List Char × Nat) => cut.add o f lines l.2 l.1) ⟨0, 0, 0, []⟩
  (cut.finish limit f lines).filter fun p => !p.content.isEmpty

/-- The pieces of a fragment; one that is not too large stays whole. -/
def split (o : Options) (f : Fragment) : Except Fault (List Fragment) := do
  if f.content.length ≤ o.maxSize then return [f]
  return cutUp o (← o.foldLimit) f

end CodeIndex.Chunk
