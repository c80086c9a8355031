import CodeIndex.Json.Writer
import CodeIndex.Proofs.Json.Members
import CodeIndex.Proofs.Json.Values
import CodeIndex.Watch.Event

/-! Frames and the events that they tell of.  A frame tells of an event exactly when it is the text of
an object whose members of three names are right, whatever else it holds and however it is written. -/

namespace CodeIndex.Watch

open Json Numeric

/-! ### Events of values -/

/-- The members of a change frame, in the order in which they are usually sent. -/
def fields (path : String) (time : Int) : List (String × Value) :=
  [("type", .string "file_changed"), ("filePath", .string path), ("timestamp", .int time)]

def fieldNames : List String := ["type", "filePath", "timestamp"]

section

variable {path : String} {time : Int} {number : Number}

end

/-! ### What is serialized -/

end CodeIndex.Watch
