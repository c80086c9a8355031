/-! JSON values. -/

namespace CodeIndex.Json

/-- A number is whole when it is written without fraction and exponent and fits 64 bits; any other
is a double. -/
inductive Number where
  | whole (n : Int)
  | double (x : Float)
  deriving Repr

/-- A JSON value; the members of an object stand in the order in which they are written. -/
inductive Value where
  | null
  | bool (b : Bool)
  | number (n : Number)
  | string (s : String)
  | array (items : List Value)
  | object (members : List (String × Value))
  deriving Repr, Inhabited

namespace Value

def nat (n : Nat) : Value := .number (.whole n)

def int (n : Int) : Value := .number (.whole n)

/-- The members of an object; of other values, none. -/
def members : Value → List (String × Value)
  | .object ms => ms
  | _ => []

/-- The member of that name; of several, the last. -/
def get? (v : Value) (key : String) : Option Value :=
  v.members.reverse.lookup key

end Value

end CodeIndex.Json
