import CodeIndex.Chunk.Fragment

/-! Joining small fragments with those after them. -/

namespace CodeIndex.Chunk

/-- Fragments below this length take in their successors. -/
def mergeThreshold : Nat := 150

/-- One fragment after another, with a line feed between. -/
def Fragment.join (a b : Fragment) : Fragment :=
  { a with content := a.content ++ '\n' :: b.content, endLine := max a.endLine b.endLine }

/-- The first is small, and both together stay below the limit. -/
def joins (limit : Nat) (a b : Fragment) : Bool :=
  a.content.length < mergeThreshold
    && a.content.length + 1 + b.content.length < limit

/-- Joins what follows to the fragment under way as far as it can. -/
def mergeFrom (limit : Nat) (current : Fragment) : List Fragment → List Fragment
  | [] => [current]
  | f :: rest =>
    if joins limit current f then mergeFrom limit (current.join f) rest
    else current :: mergeFrom limit f rest

def mergeBelow (limit : Nat) : List Fragment → List Fragment
  | [] => []
  | f :: rest => mergeFrom limit f rest

/-- Joins fragments.  The limit is computed even if there are none. -/
def merge (o : Options) (fs : List Fragment) : Except Fault (List Fragment) :=
  return mergeBelow (← o.mergeLimit) fs

end CodeIndex.Chunk
