import CodeIndex.Qdrant.Message

/-! JSON values as contents of points, and back. -/

namespace CodeIndex.Qdrant

open Json (Value Number)

/-- A whole number that does not fit into 63 bits and a sign becomes a double. -/
def Content.ofNumber : Number → Content
  | .whole n =>
    if -0x8000000000000000 ≤ n ∧ n < 0x8000000000000000 then .integer (Int64.ofInt n)
    else .double (Float.ofInt n)
  | .double x => .double x

mutual

def Content.ofJson : Value → Content
  | .null => .null
  | .bool b => .boolean b
  | .number n => .ofNumber n
  | .string s => .text s
  | .array items => .list (contentsOf items)
  | .object ms => .fields (fieldsOf ms)

def contentsOf : List Value → List Content
  | [] => []
  | v :: rest => .ofJson v :: contentsOf rest

def fieldsOf : List (String × Value) → List (String × Content)
  | [] => []
  | (name, v) :: rest => (name, .ofJson v) :: fieldsOf rest

end

/-- A double is a number if it is finite. -/
def jsonOfDouble (x : Float) : Value := if x.isFinite then .number (.double x) else .null

mutual

def Content.toJson : Content → Value
  | .unset => .null
  | .null => .null
  | .boolean b => .bool b
  | .integer n => .int n.toInt
  | .double x => jsonOfDouble x
  | .text s => .string s
  | .list items => .array (jsonOfContents items)
  | .fields ms => .object (jsonOfFields ms)

def jsonOfContents : List Content → List Value
  | [] => []
  | c :: rest => c.toJson :: jsonOfContents rest

def jsonOfFields : List (String × Content) → List (String × Value)
  | [] => []
  | (name, c) :: rest => (name, c.toJson) :: jsonOfFields rest

end

/-- The fields of a stored payload. -/
def payloadFields (p : Store.Payload) : List (String × Content) := fieldsOf p.toJson.members

/-- The payload of fields that have its form. -/
def readPayload (fields : List (String × Content)) : Except Json.DecodeError Store.Payload :=
  Store.Payload.ofJson (.object (jsonOfFields fields))

end CodeIndex.Qdrant
