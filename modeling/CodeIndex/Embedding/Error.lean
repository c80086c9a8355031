/-! What can go wrong when texts are embedded. -/

namespace CodeIndex.Embedding

inductive EmbedError where
  /-- The request could not be sent or answered. -/
  | transport (reason : String)
  /-- The reply is no list of vectors. -/
  | malformed (reason : String)
  | status (code : Nat) (message : String)
  | countMismatch (expected found : Nat)
  deriving DecidableEq, Repr

def EmbedError.message : EmbedError → String
  | transport reason => s!"HTTP request failed: {reason}"
  | malformed reason => s!"JSON parse failed: {reason}"
  | status code message => s!"embedding request failed (status {code}): {message}"
  | countMismatch expected found => s!"expected {expected} embeddings, got {found}"

/-- The messages of what caused an error. -/
def EmbedError.causes : EmbedError → List String
  | transport reason => [reason]
  | malformed reason => [reason]
  | _ => []

end CodeIndex.Embedding
