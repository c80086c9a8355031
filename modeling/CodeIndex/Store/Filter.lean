import CodeIndex.Store.Error
import CodeIndex.Store.Payload

/-! Filters: equality conditions on the file of a record. -/

namespace CodeIndex.Store

/-- The fields that a filter can ask for. -/
inductive Field where
  | filePath
  | fileName
  | fileExtension
  deriving DecidableEq, Repr

/-- The place of a field in a payload, as a path of member names joined by dots. -/
def Field.key : Field → String
  | filePath => "metadata.filePath"
  | fileName => "metadata.fileName"
  | fileExtension => "metadata.fileExtension"

/-- The values that the set fields must have; a filter without any lets everything pass. -/
structure Filter where
  filePath : Option String := none
  fileName : Option String := none
  fileExtension : Option String := none
  deriving DecidableEq, Repr

/-- A field and the value that it must have. -/
abbrev Condition := Field × String

namespace Filter

/-- The filter that lets the records of a file pass. -/
def forFile (path : String) : Filter := { filePath := some path }

/-- The conditions of the fields that are set. -/
def conditions (f : Filter) : List Condition :=
  (f.filePath.map (.filePath, ·)).toList
    ++ (f.fileName.map (.fileName, ·)).toList
    ++ (f.fileExtension.map (.fileExtension, ·)).toList

/-- The conditions of a filter that has some. -/
def requiredConditions (f : Filter) : Except StoreError (List Condition) :=
  match f.conditions with
  | [] => .error .emptyFilter
  | cs => .ok cs

/-- A wanted value, if there is one, is the one found. -/
def agrees (wanted : Option String) (found : String) : Bool := wanted.all (· == found)

/-- All set fields have the value that they must have. -/
def matches_ (f : Filter) (m : Metadata) : Bool :=
  agrees f.filePath m.filePath && agrees f.fileName m.fileName
    && agrees f.fileExtension m.fileExtension

end Filter

end CodeIndex.Store
