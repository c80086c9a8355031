import CodeIndex.Sorting.Runs
import CodeIndex.Store.Record

/-! Scores and rankings.  A record is ranked once by the angle of its dense vector and once by the
words that it shares with the query; the two rankings are fused by the reciprocals of the ranks.
Scores that are no numbers may leave the records without an order, and then sorting them breaks off. -/

namespace CodeIndex.Store

/-- The sum of the products of two vectors' components, from left to right. -/
def dot (a b : Array Float32) : Float32 :=
  (a.toList.zip b.toList).foldl (fun sum xy => sum + xy.1 * xy.2) 0

def norm (a : Array Float32) : Float32 := (dot a a).sqrt

/-- The cosine of the angle between two vectors, 0 when one of them has no length. -/
def cosine (a b : Array Float32) : Float32 :=
  let product := dot a b
  let normA := norm a
  let normB := norm b
  if normA == 0 || normB == 0 then 0 else product / (normA * normB)

/-- The sum, over the hashes of a query, of the products of the counts on both sides.  Of several
counts that a document has for one hash the last is taken. -/
def sparseDot {Count α : Type} [Add α] [Mul α] [Zero α] (ofCount : Count → α)
    (query document : SparseVector Count) : α :=
  (query.entries.filterMap fun (hash, count) =>
    (document.entries.reverse.lookup hash).map fun found => ofCount count * ofCount found).foldl
    (· + ·) 0

/-- Something with a score. -/
abbrev Scored (α : Type) := String × α

/-- The higher score comes first; of two that are neither higher, the smaller identifier. -/
def Scored.before {α : Type} (less : α → α → Bool) (a b : Scored α) : Bool :=
  less b.2 a.2 || (!less a.2 b.2 && decide (a.1 < b.1))

/-- The best identifiers, at most `limit`. -/
def ranked {α : Type} (less : α → α → Bool) (limit : Nat) (scored : List (Scored α)) :
    Except Fault (List String) := do
  return ((← Sorting.sort (Scored.before less) scored).take limit).map Prod.fst

/-- Scores for places in rankings, which are added up. -/
structure RankScale (α : Type) where
  zero : α
  add : α → α → α
  less : α → α → Bool
  /-- The score of a place, counted from 1. -/
  weight : Nat → α

/-- The shift of the ranks. -/
def rankOffset : Nat := 60

/-- Scores in single precision: the reciprocal of the shifted rank. -/
def RankScale.single : RankScale Float32 where
  zero := 0
  add := (· + ·)
  less a b := a < b
  weight rank := 1 / (Float32.ofNat rankOffset + Float32.ofNat rank)

/-- Adds to the score of an identifier, which is zero at first. -/
def addScore {α : Type} (s : RankScale α) (id : String) (score : α) :
    List (Scored α) → List (Scored α)
  | [] => [(id, s.add s.zero score)]
  | (other, sum) :: rest =>
    if other = id then (other, s.add sum score) :: rest
    else (other, sum) :: addScore s id score rest

/-- Adds the scores of a ranking's places. -/
def addRanking {α : Type} (s : RankScale α) (sums : List (Scored α)) (ids : List String) :
    List (Scored α) :=
  ids.zipIdx.foldl (fun sums (id, place) => addScore s id (s.weight (place + 1)) sums) sums

/-- All identifiers of two rankings with their scores, best first. -/
def fuse {α : Type} (s : RankScale α) (first second : List String) :
    Except Fault (List (Scored α)) :=
  Sorting.sort (Scored.before s.less) (addRanking s (addRanking s [] first) second)

end CodeIndex.Store
