import CodeIndex.Text.Ranges
import CodeIndex.Text.WordTable

/-! Words: the maximal runs of word characters of a text. -/

namespace CodeIndex.Text

/-- Letters, digits, marks, underscores and joiners make words. -/
def isWord (c : Char) : Bool :=
  if c.toNat < 128 then c.isAlphanum || c == '_' else inRanges wordRanges c

/-- The maximal runs of characters that satisfy `p`, in order. -/
def runs (p : Char → Bool) (cs : List Char) : List (List Char) :=
  match cs with
  | [] => []
  | c :: rest =>
    if p c then (c :: rest.takeWhile p) :: runs p (rest.dropWhile p) else runs p rest
termination_by cs.length
decreasing_by
  · have := (List.dropWhile_sublist (l := rest) p).length_le
    simp only [List.length_cons]; omega
  · simp

def words (cs : List Char) : List (List Char) := runs isWord cs

end CodeIndex.Text
