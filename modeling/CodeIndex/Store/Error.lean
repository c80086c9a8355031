import CodeIndex.Json.Decoding

/-! What can go wrong in a store. -/

namespace CodeIndex.Store

/-- What a backend complains of.  A `report` is a text that came from outside. -/
inductive BackendFault where
  | collectionExists (collection : String)
  | wrongSize (id : String) (expected found : Nat)
  | report (text : String)
  deriving DecidableEq, Repr

def BackendFault.message : BackendFault → String
  | collectionExists collection => s!"collection {collection} already exists"
  | wrongSize id expected found =>
    s!"wrong dense vector size for {id}: expected {expected}, got {found}"
  | report text => text

inductive StoreError where
  | backend (fault : BackendFault)
  | collectionNotFound (collection : String)
  | emptyFilter
  | payload (reason : Json.DecodeError)
  deriving Repr

def StoreError.message : StoreError → String
  | backend fault => s!"vector store backend error: {fault.message}"
  | collectionNotFound collection => s!"collection not found: {collection}"
  | emptyFilter => "invalid filter: at least one equality condition is required"
  | payload reason => s!"serialization error: {reason.message}"

end CodeIndex.Store
