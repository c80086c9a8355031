import CodeIndex.Chunk.Fragment
import CodeIndex.Text.Blank

/-! The settings, their defaults, and which of them are refused. -/

namespace CodeIndex.Config

/-- A text that is never shown. -/
structure Secret where
  value : String
  deriving DecidableEq

/-- What stands in place of a secret. -/
def Secret.shown : String := "[REDACTED]"

/-- Where and how texts are embedded; the timeout is in seconds. -/
structure EmbeddingSettings where
  baseUrl : String := "http://localhost:11434/v1"
  model : String := "all-minilm"
  apiKey : Option Secret := none
  dimensions : Nat := 384
  timeout : Nat := 120
  deriving DecidableEq

/-- The vector store, and the collection that is used when none is named. -/
structure StoreSettings where
  url : String := "http://localhost:6334"
  collection : String := "codebase"
  deriving DecidableEq

/-- The notification server; the interval is in milliseconds. -/
structure WatchSettings where
  url : String := "ws://127.0.0.1:3001"
  baseInterval : Nat := 1000
  maxAttempts : Nat := 5
  deriving DecidableEq

structure Settings where
  embedding : EmbeddingSettings := {}
  store : StoreSettings := {}
  chunks : Chunk.Options := {}
  watch : WatchSettings := {}
  deriving DecidableEq

/-- Why settings are refused. -/
inductive Fault where
  | baseUrlBlank
  | modelBlank
  | dimensionsZero
  | timeoutZero
  | storeUrlBlank
  | collectionBlank
  | maxSizeZero
  | overlapTooLarge (overlap maxSize : Nat)
  | watchUrlBlank
  | baseIntervalZero
  deriving DecidableEq, Repr

def Fault.message : Fault → String
  | baseUrlBlank => "embedding.base_url must not be empty"
  | modelBlank => "embedding.model must not be empty"
  | dimensionsZero => "embedding.dimensions must be greater than 0"
  | timeoutZero => "embedding.timeout_secs must be greater than 0"
  | storeUrlBlank => "qdrant.url must not be empty"
  | collectionBlank => "qdrant.collection must not be empty"
  | maxSizeZero => "chunker.max_size must be greater than 0"
  | overlapTooLarge overlap maxSize =>
    s!"chunker.overlap ({overlap}) must be less than chunker.max_size ({maxSize})"
  | watchUrlBlank => "watch.url must not be empty"
  | baseIntervalZero => "watch.base_interval_ms must be greater than 0"

def isBlank (s : String) : Bool := Text.isAllBlank s.toList

/-- The first fault of settings, in the order of the sections and of the settings in them. -/
def Settings.fault? (s : Settings) : Option Fault :=
  if isBlank s.embedding.baseUrl then some .baseUrlBlank
  else if isBlank s.embedding.model then some .modelBlank
  else if s.embedding.dimensions = 0 then some .dimensionsZero
  else if s.embedding.timeout = 0 then some .timeoutZero
  else if isBlank s.store.url then some .storeUrlBlank
  else if isBlank s.store.collection then some .collectionBlank
  else if s.chunks.maxSize = 0 then some .maxSizeZero
  else if s.chunks.maxSize ≤ s.chunks.overlap then
    some (.overlapTooLarge s.chunks.overlap s.chunks.maxSize)
  else if isBlank s.watch.url then some .watchUrlBlank
  else if s.watch.baseInterval = 0 then some .baseIntervalZero
  else none

end CodeIndex.Config
