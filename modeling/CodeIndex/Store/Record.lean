import CodeIndex.Sparse.Vector
import CodeIndex.Store.Filter

/-! Records, and what is asked of them and answered. -/

namespace CodeIndex.Store

/-- A vector of both kinds. -/
structure HybridVector where
  dense : Array Float32
  sparse : SparseVector
  deriving Repr

/-- A stored fragment.  Records are replaced as a whole. -/
structure Record where
  id : String
  vector : HybridVector
  payload : Payload
  deriving Repr

/-- The greatest number of hits that can be asked for. -/
def maxLimit : Nat := 0xFFFFFFFFFFFFFFFF

/-- How a query is to be answered. -/
structure QueryOptions where
  limit : Nat := 10
  scoreThreshold : Float32 := 0
  includePayload : Bool := true
  filter : Option Filter := none
  deriving Repr

/-- Each of the two rankings gives twice as many candidates as hits are wanted. -/
def QueryOptions.prefetchLimit (o : QueryOptions) : Nat := min (2 * o.limit) maxLimit

structure Hit where
  id : String
  score : Float32
  payload : Option Payload
  deriving Repr

end CodeIndex.Store
