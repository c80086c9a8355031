import CodeIndex.Network.Peer
import CodeIndex.Network.Uri
import CodeIndex.Qdrant.Content
import CodeIndex.Store.Call

/-! The client of a vector server, as a store. -/

namespace CodeIndex.Qdrant

open Network (Peer UriFault)
open Store (BackendFault Condition Filter Hit HybridVector QueryOptions Record StoreError)

/-- A client; the collections that it creates hold dense vectors of `denseSize` components. -/
structure Client where
  denseSize : Nat
  deriving DecidableEq, Repr

/-- Why an address is refused. -/
def addressFault (fault : UriFault) : StoreError :=
  .backend (.report s!"Error parsing URI: {fault.message}")

def Client.new (url : String) (denseSize : Nat) : Except StoreError Client :=
  match Network.Uri.check url with
  | .ok _ => .ok ⟨denseSize⟩
  | .error fault => .error (addressFault fault)

/-- The client as messages show it. -/
def Client.description (c : Client) : String :=
  s!"QdrantStore \x7b dense_size: {c.denseSize}, .. \x7d"

/-- What is said when a server does not tell its version. -/
def versionNotice : String :=
  "Failed to obtain server version. Unable to check client-server compatibility. "
    ++ "Set check_compatibility=false to skip version check."

/-- A connection: the far side, and the requests that reached it. -/
structure Connection where
  peer : Peer Reply
  sent : List Request := []

/-- A series of requests, which ends at the first that fails. -/
abbrev Exchange (α : Type) := ExceptT StoreError (StateM Connection) α

def responseFault (text : String) : StoreError :=
  .backend (.report s!"Error in the response: {text}")

/-- Sends a request and takes its reply. -/
def ask (r : Request) : Exchange Reply := do
  let c ← get
  match c.peer.reply with
  | (none, peer) =>
    set { c with peer }
    throw (responseFault "the server cannot be reached")
  | (some reply, peer) =>
    set (⟨peer, c.sent ++ [r]⟩ : Connection)
    match reply.failure with
    | some text => throw (responseFault text)
    | none => pure reply

/-- Sends a request whose reply says nothing more. -/
def tell (r : Request) : Exchange Unit := do
  let _ ← ask r

namespace Client

def contains (_ : Client) (collection : String) : Exchange Bool := do
  pure (← ask (.collectionExists collection)).exists_

def create (c : Client) (collection : String) : Exchange Unit :=
  tell (.createCollection collection c.denseSize)

def createIndex (_ : Client) (collection field : String) : Exchange Unit :=
  tell (.createIndex collection field)

def delete (_ : Client) (collection : String) : Exchange Unit :=
  tell (.deleteCollection collection)

def point (r : Record) : Point := ⟨.uuid r.id, r.vector, payloadFields r.payload⟩

/-- Stores records; without any, nothing is sent. -/
def upsert (_ : Client) (collection : String) (rs : List Record) : Exchange Unit :=
  if rs.isEmpty then pure () else tell (.upsert collection (rs.map point))

/-- Takes the named records away; without any, nothing is sent. -/
def deleteIds (_ : Client) (collection : String) (ids : List String) : Exchange Unit :=
  if ids.isEmpty then pure () else tell (.deletePoints collection (ids.map .uuid))

/-- The texts of the names that have a value. -/
def idTexts (ids : List (Option (Option PointId))) : List String :=
  ids.filterMap fun id => id.join.map PointId.text

/-- Asks for the page that starts at `offset`, with nothing of its points but their names. -/
def pageRequest (collection : String) (conditions : List Condition)
    (offset : Option (Option PointId)) : Request :=
  .scroll collection conditions offset pageSize false false

/-- The names on all pages from `offset` on, at most `count` pages. -/
def pages (collection : String) (conditions : List Condition) :
    Nat → Option (Option PointId) → Exchange (List String)
  | 0, _ => pure []
  | count + 1, offset => do
    let reply ← ask (pageRequest collection conditions offset)
    let ids := idTexts reply.ids
    match reply.next with
    | some next => return ids ++ (← pages collection conditions count (some next))
    | none => return ids

/-- The names of the records that a filter lets pass; the filter must have a condition.  The last
reply of the far side must end the pages. -/
def find (_ : Client) (collection : String) (f : Filter) : Exchange (List String) := do
  let conditions ← f.requiredConditions
  pages collection conditions ((← get).peer.remaining + 1) none

/-- A found point as a hit.  A point without fields has no payload. -/
def hit (withPayload : Bool) (p : FoundPoint) : Except StoreError Hit := do
  let payload ← if withPayload && !p.payload.isEmpty then
      match readPayload p.payload with
      | .ok payload => pure (some payload)
      | .error reason => throw (.payload reason)
    else pure none
  pure ⟨(p.id.join.map PointId.text).getD "", p.score, payload⟩

/-- The conditions of a query, if it has any. -/
def queryFilter (o : QueryOptions) : Option (List Condition) :=
  (o.filter.map Filter.conditions).filter fun cs => !cs.isEmpty

def queryRequest (collection : String) (v : HybridVector) (o : QueryOptions) : Request :=
  .query collection
    [⟨denseName, .dense v.dense, queryFilter o, o.prefetchLimit⟩,
      ⟨sparseName, .sparse v.sparse, queryFilter o, o.prefetchLimit⟩]
    o.limit o.scoreThreshold o.includePayload

def query (_ : Client) (collection : String) (v : HybridVector) (o : QueryOptions) :
    Exchange (List Hit) := do
  let reply ← ask (queryRequest collection v o)
  reply.found.mapM fun p => liftExcept (hit o.includePayload p)
where
  liftExcept {α : Type} : Except StoreError α → Exchange α
    | .ok a => pure a
    | .error e => throw e

def perform (c : Client) : (call : Store.Call) → Exchange call.Result
  | .contains collection => c.contains collection
  | .create collection => c.create collection
  | .createIndex collection field => c.createIndex collection field
  | .delete collection => c.delete collection
  | .upsert collection records => c.upsert collection records
  | .deleteIds collection ids => c.deleteIds collection ids
  | .find collection filter => c.find collection filter
  | .query collection vector options => return .ok (← c.query collection vector options)

end Client

end CodeIndex.Qdrant
