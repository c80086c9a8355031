import CodeIndex.Embedding.Error
import CodeIndex.Fault
import CodeIndex.Files.Tree
import CodeIndex.Store.Error
import CodeIndex.Syntax.Position

/-! What can go wrong when files are indexed and searched, with the messages of the causes below.  A
fault stands among the errors, but nothing goes on after it. -/

namespace CodeIndex.Index

open CodeIndex.Embedding (EmbedError)
open Files (IoError)
open Store (StoreError)
open Syntax (Position)

inductive IndexError where
  | collectionMissing (collection : String)
  | io (reason : IoError)
  /-- There is a syntax error at that place. -/
  | chunk (place : Position)
  | embed (reason : EmbedError)
  | store (reason : StoreError)
  | fault (f : Fault)
  deriving Repr

/-- The message for a text that does not follow the grammar. -/
def parseFailure (place : Position) : String :=
  s!"parse failed: syntax error at line {place.line}, column {place.column}"

namespace IndexError

def message : IndexError → String
  | collectionMissing collection => s!"collection not found: {collection}"
  | io reason => s!"IO error: {reason.message}"
  | chunk place => s!"chunking failed: {parseFailure place}"
  | embed reason => s!"embedding failed: {reason.message}"
  | store reason => s!"vector store error: {reason.message}"
  | fault f => f.message

/-- The messages of what caused an error, the nearest cause first. -/
def causes : IndexError → List String
  | collectionMissing _ => []
  | io reason => [reason.message]
  | chunk place => [parseFailure place]
  | embed reason => reason.message :: reason.causes
  | store reason => [reason.message]
  | fault _ => []

end IndexError

inductive ServiceError where
  | collectionExists (collection : String)
  | collectionMissing (collection : String)
  | emptyQuery
  | index (reason : IndexError)
  | embed (reason : EmbedError)
  | store (reason : StoreError)
  | fault (f : Fault)
  deriving Repr

namespace ServiceError

/-- The message; an error of indexing speaks for itself. -/
def message : ServiceError → String
  | collectionExists collection => s!"collection already exists: {collection}"
  | collectionMissing collection => s!"collection not found: {collection}"
  | emptyQuery => "query text must not be empty"
  | index reason => reason.message
  | embed reason => s!"embedding failed: {reason.message}"
  | store reason => s!"vector store error: {reason.message}"
  | fault f => f.message

def causes : ServiceError → List String
  | index reason => reason.causes
  | embed reason => reason.message :: reason.causes
  | store reason => [reason.message]
  | _ => []

end ServiceError

end CodeIndex.Index
