import CodeIndex.Store.Record

/-! The messages between the program and a vector server. -/

namespace CodeIndex.Qdrant

open Store (Condition HybridVector)

/-- The name of a point: a number, or a text in the form of a unique identifier. -/
inductive PointId where
  | number (n : Nat)
  | uuid (s : String)
  deriving DecidableEq, Repr

def PointId.text : PointId → String
  | number n => toString n
  | uuid s => s

/-- What a field of a point holds. -/
inductive Content where
  /-- A value of no kind. -/
  | unset
  | null
  | boolean (b : Bool)
  | integer (n : Int64)
  | double (x : Float)
  | text (s : String)
  | list (items : List Content)
  | fields (members : List (String × Content))
  deriving Repr, Inhabited

def denseName : String := "dense"

def sparseName : String := "sparse"

/-- A record as it is sent. -/
structure Point where
  id : PointId
  vector : HybridVector
  payload : List (String × Content)
  deriving Repr

def pageSize : Nat := 100

/-- The vector that a ranking goes by: the nearest points come first. -/
inductive Target where
  | dense (components : Array Float32)
  | sparse (v : SparseVector)
  deriving Repr

/-- One of the rankings that a query fuses: by which vectors of the points, nearest to what, of
which points, and how many of them.  Without a filter all points are ranked, with one those that
meet all of its conditions. -/
structure Branch where
  vectorName : String
  target : Target
  filter : Option (List Condition)
  limit : Nat
  deriving Repr

inductive Request where
  | collectionExists (collection : String)
  | createCollection (collection : String) (denseSize : Nat)
  | createIndex (collection field : String)
  | deleteCollection (collection : String)
  | upsert (collection : String) (points : List Point)
  | deletePoints (collection : String) (ids : List PointId)
  /-- A page of at most `limit` points that meet all conditions; `offset` names the first, by a name
  or by none. -/
  | scroll (collection : String) (conditions : List Condition) (offset : Option (Option PointId))
      (limit : Nat) (withPayload withVectors : Bool)
  /-- Rankings that are fused by their ranks, with no filter but their own. -/
  | query (collection : String) (branches : List Branch) (limit : Nat) (threshold : Float32)
      (withPayload : Bool)
  deriving Repr

/-- A point that a query found. -/
structure FoundPoint where
  id : Option (Option PointId)
  score : Float32
  payload : List (String × Content)
  deriving Repr

/-- A reply: a failure, or what was asked for; the rest is empty. -/
structure Reply where
  failure : Option String := none
  exists_ : Bool := false
  /-- The names on a page; a point may have no name, or a name without value. -/
  ids : List (Option (Option PointId)) := []
  next : Option (Option PointId) := none
  found : List FoundPoint := []
  deriving Repr, Inhabited

end CodeIndex.Qdrant
