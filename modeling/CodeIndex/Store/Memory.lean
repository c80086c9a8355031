import CodeIndex.Catalog
import CodeIndex.Store.Ranking

/-! The store that is kept in memory: collections of records, each with the set of its indexed
fields.  An operation that fails leaves the store as it was, and an operation on one collection does
not touch another. -/

namespace CodeIndex.Store

/-- Records under their identifiers, and the fields that are declared as indexed. -/
structure Collection where
  records : Catalog Record
  indexes : List String
  /-- Every record stands under its own identifier. -/
  keyed : ∀ e ∈ records.entries, e.2.id = e.1

/-- Earlier lines come first, then earlier ends, then the smaller text. -/
def Record.spanBefore (a b : Record) : Bool :=
  let (m, n) := (a.payload.metadata, b.payload.metadata)
  m.startLine < n.startLine || (m.startLine == n.startLine &&
    (m.endLine < n.endLine || (m.endLine == n.endLine && a.payload.code < b.payload.code)))

namespace Collection

def empty : Collection := ⟨.empty, [], fun _ h => (List.not_mem_nil h).elim⟩

def insert (c : Collection) (r : Record) : Collection where
  records := c.records.insert r.id r
  indexes := c.indexes
  keyed e he := by
    rcases mem_of_mem_insertEntry he with rfl | he
    · rfl
    · exact c.keyed e he

def insertAll (c : Collection) (rs : List Record) : Collection := rs.foldl insert c

def erase (c : Collection) (id : String) : Collection where
  records := c.records.erase id
  indexes := c.indexes
  keyed e he := c.keyed e (List.mem_filter.1 he).1

def eraseAll (c : Collection) (ids : List String) : Collection := ids.foldl erase c

def declareIndex (c : Collection) (field : String) : Collection :=
  { c with indexes := if field ∈ c.indexes then c.indexes else field :: c.indexes }

/-- The records that a filter lets pass, by ascending identifier. -/
def filtered (c : Collection) (f : Filter) : List Record :=
  c.records.values.filter fun r => f.matches_ r.payload.metadata

def forFile (c : Collection) (path : String) : List Record :=
  c.records.values.filter fun r => r.payload.metadata.filePath == path

/-- The number of identifiers on a page. -/
def pageSize : Nat := 100

/-- The identifiers on the page that starts at `start`, and where the next page starts. -/
def page (c : Collection) (f : Filter) (size : Nat) (start : Option String) :
    List String × Option String :=
  let ids := ((c.filtered f).map Record.id).filter fun id => start.all (· ≤ id)
  (ids.take size, (ids.drop size).head?)

/-- The identifiers on all pages from `start` on, at most `count` pages. -/
def pages (c : Collection) (f : Filter) (size : Nat) : Nat → Option String → List String
  | 0, _ => []
  | count + 1, start =>
    let (ids, next) := c.page f size start
    match next with
    | some next => ids ++ pages c f size count (some next)
    | none => ids

/-- The identifiers that a filter lets pass, collected page by page. -/
def find (c : Collection) (f : Filter) : List String :=
  c.pages f pageSize (c.records.entries.length + 1) none

/-- The texts of a file's records, by lines and then by text. -/
def contents (c : Collection) (path : String) : List String :=
  (Sorting.insertionSort Record.spanBefore (c.forFile path)).map (·.payload.code)

/-- The candidates by the angle of their dense vectors. -/
def denseRanking (rs : List Record) (v : HybridVector) (limit : Nat) :
    Except Fault (List String) :=
  ranked (fun a b : Float32 => a < b) limit (rs.map fun r => (r.id, cosine v.dense r.vector.dense))

/-- The candidates that share a word with the query, by the words shared. -/
def sparseRanking (rs : List Record) (v : HybridVector) (limit : Nat) :
    Except Fault (List String) :=
  ranked (fun a b : Float32 => a < b) limit
    ((rs.map fun r => (r.id, sparseDot UInt32.toFloat32 v.sparse r.vector.sparse)).filter
      fun s => s.2 > 0)

/-- A scored identifier as a hit. -/
def hit (c : Collection) (o : QueryOptions) (s : Scored Float32) : Hit :=
  ⟨s.1, s.2, if o.includePayload then (c.records.get? s.1).map Record.payload else none⟩

/-- The hits of a query, best first. -/
def query (c : Collection) (v : HybridVector) (o : QueryOptions) : Except Fault (List Hit) := do
  let candidates := c.filtered (o.filter.getD {})
  let dense ← denseRanking candidates v o.prefetchLimit
  let sparse ← sparseRanking candidates v o.prefetchLimit
  let fused ← fuse .single dense sparse
  return ((fused.filter fun s => s.2 ≥ o.scoreThreshold).take o.limit).map (c.hit o)

end Collection

/-- A store in memory, whose dense vectors all have `denseSize` components. -/
structure Memory where
  denseSize : Nat
  collections : Catalog Collection

namespace Memory

def empty (denseSize : Nat) : Memory := ⟨denseSize, .empty⟩

def set (s : Memory) (name : String) (c : Collection) : Memory :=
  { s with collections := s.collections.insert name c }

/-- The collection of that name. -/
def collection (s : Memory) (name : String) : Except StoreError Collection :=
  match s.collections.get? name with
  | some c => .ok c
  | none => .error (.collectionNotFound name)

def contains (s : Memory) (name : String) : Bool := s.collections.contains name

def create (s : Memory) (name : String) : Except StoreError Memory :=
  if s.contains name then .error (.backend (.collectionExists name)) else .ok (s.set name .empty)

def createIndex (s : Memory) (name field : String) : Except StoreError Memory := do
  pure (s.set name ((← s.collection name).declareIndex field))

/-- Deletes a collection, if there is one of that name. -/
def delete (s : Memory) (name : String) : Memory :=
  { s with collections := s.collections.erase name }

/-- Stores all records, or none if one of them has a dense vector of another size. -/
def upsert (s : Memory) (name : String) (rs : List Record) : Except StoreError Memory := do
  let c ← s.collection name
  match rs.find? (·.vector.dense.size ≠ s.denseSize) with
  | some r => throw (.backend (.wrongSize r.id s.denseSize r.vector.dense.size))
  | none => pure (s.set name (c.insertAll rs))

/-- Takes the named records away; without any, the collection is not looked at. -/
def deleteIds (s : Memory) (name : String) (ids : List String) : Except StoreError Memory := do
  if ids.isEmpty then pure s
  else pure (s.set name ((← s.collection name).eraseAll ids))

/-- The identifiers of the records that a filter lets pass; the filter must have a condition. -/
def find (s : Memory) (name : String) (f : Filter) : Except StoreError (List String) := do
  let _ ← f.requiredConditions
  pure ((← s.collection name).find f)

/-- The answer of a query, unless sorting the records breaks off. -/
def query (s : Memory) (name : String) (v : HybridVector) (o : QueryOptions) :
    Except StoreError (Except Fault (List Hit)) := do
  pure ((← s.collection name).query v o)

/-- Deletes a collection, if there is one, and creates it with the index on the file path. -/
def clear (s : Memory) (name : String) : Except StoreError Memory := do
  let s := if s.contains name then s.delete name else s
  (← s.create name).createIndex name Field.filePath.key

/-- The number of records of a file. -/
def count? (s : Memory) (name path : String) : Option Nat :=
  (s.collections.get? name).map fun c => (c.forFile path).length

/-- The texts of a file's records; none when the collection is missing. -/
def contents (s : Memory) (name path : String) : List String :=
  match s.collections.get? name with
  | some c => c.contents path
  | none => []

def hasIndex (s : Memory) (name field : String) : Bool :=
  (s.collections.get? name).any (field ∈ ·.indexes)

/-- The store as messages show it. -/
def description (s : Memory) : String :=
  s!"InMemoryVectorStore \x7b dense_size: {s.denseSize}, .. \x7d"

end Memory

end CodeIndex.Store
