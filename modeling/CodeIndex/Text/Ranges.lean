/-! Membership in a sorted table of disjoint closed ranges of code points. -/

namespace CodeIndex.Text

/-- Binary search among the entries `lo ≤ i < hi`, halving at most `depth` times. -/
def searchRanges (table : Array (Nat × Nat)) (c : Nat) : Nat → Nat → Nat → Bool
  | 0, _, _ => false
  | depth + 1, lo, hi =>
    if lo < hi then
      let mid := (lo + hi) / 2
      match table[mid]? with
      | none => false
      | some (first, last) =>
        if c < first then searchRanges table c depth lo mid
        else if last < c then searchRanges table c depth (mid + 1) hi
        else true
    else false

/-- The character lies in one of the ranges of the table. -/
def inRanges (table : Array (Nat × Nat)) (c : Char) : Bool :=
  searchRanges table c.toNat (table.size + 1) 0 table.size

end CodeIndex.Text
