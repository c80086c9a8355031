import CodeIndex.Json.Reader

/-! Change events, as the frames of a watch connection tell them. -/

namespace CodeIndex.Watch

open Json (Value Number)

/-- A file was changed at a time. -/
structure Event where
  filePath : String
  timestamp : Float
  deriving Repr

def numberValue : Number → Float
  | .whole n => Float.ofInt n
  | .double x => x

/-- The event of a value: an object with the type `file_changed`, a path and a time. -/
def Event.ofJson? (v : Value) : Option Event :=
  match v.get? "type", v.get? "filePath", v.get? "timestamp" with
  | some (.string type), some (.string path), some (.number n) =>
    if type = "file_changed" then some ⟨path, numberValue n⟩ else none
  | _, _, _ => none

/-- The event of a frame, if the frame tells of one. -/
def Event.ofText? (text : String) : Option Event := (Json.read? text).bind Event.ofJson?

end CodeIndex.Watch
