import CodeIndex.Config.Basic
import CodeIndex.Numeric.Numeral

/-! Environment variables, each of which sets one setting. -/

namespace CodeIndex.Config

/-- The values of the variables that are set. -/
abbrev Environment := String → Option String

namespace Environment

def names : List String := [
  "CODESYNC_CONFIG", "CODESYNC_EMBEDDING_BASE_URL", "CODESYNC_EMBEDDING_MODEL",
  "CODESYNC_EMBEDDING_API_KEY", "CODESYNC_EMBEDDING_DIMENSIONS",
  "CODESYNC_EMBEDDING_TIMEOUT_SECS", "CODESYNC_QDRANT_URL", "CODESYNC_COLLECTION",
  "CODESYNC_CHUNK_MAX_SIZE", "CODESYNC_CHUNK_OVERLAP", "CODESYNC_WATCH_URL",
  "CODESYNC_WATCH_BASE_INTERVAL_MS", "CODESYNC_WATCH_MAX_RECONNECT_ATTEMPTS"]

/-- The text of a variable, or else the value given. -/
def text (env : Environment) (name : String) (default : String) : String :=
  (env name).getD default

/-- The number of a variable that holds one, or else the value given. -/
def word (env : Environment) (bits : Nat) (name : String) (default : Nat) : Nat :=
  ((env name).bind (Numeric.readWord? bits)).getD default

end Environment

/-- The settings with the variables that are set. -/
def Settings.override (s : Settings) (env : Environment) : Settings where
  embedding := {
    baseUrl := env.text "CODESYNC_EMBEDDING_BASE_URL" s.embedding.baseUrl
    model := env.text "CODESYNC_EMBEDDING_MODEL" s.embedding.model
    apiKey := match env "CODESYNC_EMBEDDING_API_KEY" with
      | some key => some ⟨key⟩
      | none => s.embedding.apiKey
    dimensions := env.word 64 "CODESYNC_EMBEDDING_DIMENSIONS" s.embedding.dimensions
    timeout := env.word 64 "CODESYNC_EMBEDDING_TIMEOUT_SECS" s.embedding.timeout }
  store := {
    url := env.text "CODESYNC_QDRANT_URL" s.store.url
    collection := env.text "CODESYNC_COLLECTION" s.store.collection }
  chunks := {
    maxSize := env.word 64 "CODESYNC_CHUNK_MAX_SIZE" s.chunks.maxSize
    overlap := env.word 64 "CODESYNC_CHUNK_OVERLAP" s.chunks.overlap }
  watch := {
    url := env.text "CODESYNC_WATCH_URL" s.watch.url
    baseInterval := env.word 64 "CODESYNC_WATCH_BASE_INTERVAL_MS" s.watch.baseInterval
    maxAttempts := env.word 32 "CODESYNC_WATCH_MAX_RECONNECT_ATTEMPTS" s.watch.maxAttempts }

end CodeIndex.Config
