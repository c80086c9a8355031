import CodeIndex.Embedding.Client
import CodeIndex.Index.World
import CodeIndex.Qdrant.Client

/-! A store and an embedder on two servers. -/

namespace CodeIndex.Index

open CodeIndex.Embedding (HttpReply HttpRequest)
open Network (Peer)

/-- A request to one of the two servers. -/
inductive Sent where
  | store (request : Qdrant.Request)
  | embedding (request : HttpRequest)

/-- The two clients, the servers on their far sides, and the requests that reached these. -/
structure Remote where
  store : Qdrant.Client
  embedder : Embedding.Client
  storePeer : Peer Qdrant.Reply
  embeddingPeer : Peer HttpReply
  sent : List Sent := []

/-- Answers a call of the store over the network. -/
def Remote.call (r : Remote) (c : Store.Call) : c.Answer × Remote :=
  let (answer, connection) := (r.store.perform c).run ⟨r.storePeer, []⟩
  (answer, { r with
    storePeer := connection.peer, sent := r.sent ++ connection.sent.map Sent.store })

def Remote.embed (r : Remote) (texts : List String) :
    Except Embedding.EmbedError (List (Array Float32)) × Remote :=
  let (answer, requests, peer) := r.embedder.embed texts r.embeddingPeer
  (answer, { r with embeddingPeer := peer, sent := r.sent ++ requests.map Sent.embedding })

def Services.remote : Services Remote := ⟨Remote.call, Remote.embed⟩

end CodeIndex.Index
