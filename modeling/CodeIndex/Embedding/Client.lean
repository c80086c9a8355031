import CodeIndex.Embedding.Error
import CodeIndex.Json.Reader
import CodeIndex.Json.Writer
import CodeIndex.Network.Peer
import CodeIndex.Network.Uri
import CodeIndex.Text.Quoted

/-! The client of an embedding server: a batch of texts is sent in one request, and the reply holds
a vector for each. -/

namespace CodeIndex.Embedding

open Json (Value Number)
open Network (Peer)

/-- A client; slashes at the end of the address are left out. -/
structure Client where
  apiKey : String
  baseUrl : String
  model : String
  deriving DecidableEq, Repr

def Client.new (apiKey baseUrl model : String) : Client :=
  ⟨apiKey, String.ofList (baseUrl.toList.reverse.dropWhile (· == '/')).reverse, model⟩

/-- The client as messages show it, without its key. -/
def Client.description (c : Client) : String :=
  "OpenAiEmbedder \x7b client: \"<reqwest::Client>\", api_key: \"<redacted>\", base_url: "
    ++ Text.quoted c.baseUrl ++ ", model: " ++ Text.quoted c.model ++ " \x7d"

/-- A request to the server. -/
structure HttpRequest where
  method : String
  address : String
  authorization : String
  contentType : String
  userAgent : String
  body : String
  deriving DecidableEq, Repr

/-- A reply of the server. -/
structure HttpReply where
  status : Nat := 200
  body : String := ""
  deriving DecidableEq, Repr

def userAgent : String := "codesync-embed/0.3.0"

def Client.request (c : Client) (texts : List String) : HttpRequest where
  method := "POST"
  address := c.baseUrl ++ "/embeddings"
  authorization := "Bearer " ++ c.apiKey
  contentType := "application/json"
  userAgent := userAgent
  body := (Value.object
    [("input", .array (texts.map .string)), ("model", .string c.model)]).compact

/-- A text may stand in a header: it holds no control character but the tab. -/
def isHeaderText (s : String) : Bool :=
  s.toList.all fun c => c == '\t' || (0x20 ≤ c.toNat && c.toNat != 0x7F)

/-- A vector of a reply, with the place that the server names for it. -/
structure Embedded where
  vector : Array Float32
  index : Option Nat
  deriving Repr

/-- A member of a record, which may stand only once. -/
def single? (members : List (String × Value)) (name : String) : Option (Option Value) :=
  match members.filter (·.1 = name) with
  | [] => some none
  | [m] => some (some m.2)
  | _ => none

def component? : Value → Option Float32
  | .number (.whole n) => some (Float32.ofInt n)
  | .number (.double x) => some x.toFloat32
  | _ => none

def vector? : Value → Option (Array Float32)
  | .array items => (items.mapM component?).map List.toArray
  | _ => none

/-- A place: a whole number of 64 bits, or null for none. -/
def index? : Value → Option (Option Nat)
  | .null => some none
  | .number (.whole n) => if 0 ≤ n then some (some n.toNat) else none
  | _ => none

/-- An entry of a reply: an object, or an array of its fields; the place may be left out. -/
def Embedded.ofJson? : Value → Option Embedded
  | .object ms => do
    let vector ← vector? (← (← single? ms "embedding"))
    let index ← match ← single? ms "index" with
      | some v => index? v
      | none => some none
    pure ⟨vector, index⟩
  | .array [v] => (vector? v).map (⟨·, none⟩)
  | .array [v, i] => do pure ⟨← vector? v, ← index? i⟩
  | _ => none

def entries? : Value → Option (List Embedded)
  | .array items => items.mapM Embedded.ofJson?
  | _ => none

/-- An entry with the members that count. -/
def readEntry : Json.Reader Value :=
  Json.readRecord (Json.readValue Json.maxDepth) ["embedding", "index"]

/-- The entries of a reply.  What else a reply and its entries tell is skipped. -/
def readReply? (body : String) : Option (List Embedded) := do
  match ← Json.readWith? (Json.readRecord (Json.readList readEntry) ["data"]) body with
  | .object ms => entries? (← (← single? ms "data"))
  | .array [v] => entries? v
  | _ => none

/-- Puts an entry behind all with a place up to its own. -/
def insertByIndex (e : Embedded) : List Embedded → List Embedded
  | [] => [e]
  | f :: rest =>
    if f.index.getD 0 ≤ e.index.getD 0 then f :: insertByIndex e rest else e :: f :: rest

/-- The entries in the order of their places if all have one, else as they came. -/
def ordered (es : List Embedded) : List Embedded :=
  if es.all (·.index.isSome) then es.foldl (fun done e => insertByIndex e done) [] else es

def vectorsOf (count : Nat) (reply : HttpReply) : Except EmbedError (List (Array Float32)) :=
  if reply.status < 200 ∨ 300 ≤ reply.status then .error (.status reply.status reply.body)
  else match readReply? reply.body with
    | none => .error (.malformed "unexpected reply")
    | some es =>
      let vectors := (ordered es).map (·.vector)
      if vectors.length = count then .ok vectors else .error (.countMismatch count vectors.length)

/-- Embeds a batch: the vectors, the requests that were answered, and the far side after them.
Nothing is sent for an empty batch. -/
def Client.embed (c : Client) (texts : List String) (peer : Peer HttpReply) :
    Except EmbedError (List (Array Float32)) × List HttpRequest × Peer HttpReply :=
  if texts.isEmpty then (.ok [], [], peer)
  else
    let request := c.request texts
    if !isHeaderText request.authorization then (.error (.transport "builder error"), [], peer)
    else match peer.reply with
      | (none, peer) => (.error (.transport "error sending request"), [], peer)
      | (some reply, peer) => (vectorsOf texts.length reply, [request], peer)

end CodeIndex.Embedding
