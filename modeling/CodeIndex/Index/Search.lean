import CodeIndex.Index.Action
import CodeIndex.Text.Blank

/-! Collections and searches in them. -/

namespace CodeIndex.Index

open Store (Field Hit QueryOptions)

/-- Creates a collection with the index on the file path. -/
def createCollection (name : String) : Attempt ServiceError Unit := do
  if ← call .store (.contains name) then throw (.collectionExists name)
  call .store (.create name)
  call .store (.createIndex name Field.filePath.key)

/-- Deletes a collection, if there is one, and creates it again. -/
def clearCollection (name : String) : Attempt ServiceError Unit := do
  if ← call .store (.contains name) then call .store (.delete name)
  call .store (.create name)
  call .store (.createIndex name Field.filePath.key)

/-- Searches for a text by its meaning and its words. -/
def search (collection text : String) (o : QueryOptions) : Attempt ServiceError (List Hit) := do
  if Text.isAllBlank text.toList then throw .emptyQuery
  if !(← call .store (.contains collection)) then throw (.collectionMissing collection)
  match (← settle .embed (← act (.embed [text]))).getLast? with
  | none => throw (.embed (.countMismatch 1 0))
  | some dense => settle .fault (← call .store (.query collection ⟨dense, .ofText text⟩ o))

end CodeIndex.Index
