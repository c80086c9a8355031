import CodeIndex.Json.Writer
import CodeIndex.Text.Quoted

/-! Decoding JSON values into words, texts and records, with the reasons for which a value is
refused. -/

namespace CodeIndex.Json

/-- What a decoder wants to find. -/
inductive Expected where
  | text
  | unsigned
  | size
  | signed
  | record (name : String)
  deriving DecidableEq, Repr

def Expected.description : Expected → String
  | text => "a string"
  | unsigned => "u64"
  | size => "usize"
  | signed => "i64"
  | record name => s!"struct {name}"

/-- Why a value is refused. -/
inductive DecodeError where
  | missingField (name : String)
  | wrongType (found : Value) (expected : Expected)
  | outOfRange (found : Int) (expected : Expected)
  | tooFewItems (count : Nat) (name : String) (fields : Nat)
  | tooManyItems (count : Nat)
  deriving Repr

/-- A value as messages name it. -/
def Value.description : Value → String
  | .null => "null"
  | .bool true => "boolean `true`"
  | .bool false => "boolean `false`"
  | .number (.whole n) => s!"integer `{n}`"
  | .number (.double x) => s!"floating point `{(Number.double x).text}`"
  | .string s => s!"string {Text.quoted s}"
  | .array _ => "sequence"
  | .object _ => "map"

def DecodeError.message : DecodeError → String
  | missingField name => s!"missing field `{name}`"
  | wrongType found expected =>
    s!"invalid type: {found.description}, expected {expected.description}"
  | outOfRange n expected => s!"invalid value: integer `{n}`, expected {expected.description}"
  | tooFewItems count name fields =>
    s!"invalid length {count}, expected struct {name} with {fields} elements"
  | tooManyItems count => s!"invalid length {count}, expected fewer elements in array"

/-- A decoder turns a value into a value of the domain, or says why it cannot. -/
abbrev Decoder (α : Type) := Value → Except DecodeError α

def decodeText : Decoder String
  | .string s => .ok s
  | v => .error (.wrongType v .text)

/-- A whole number from 0 to `2 ^ 64 - 1`. -/
def decodeUnsigned (expected : Expected) : Decoder UInt64
  | .number (.whole n) =>
    if 0 ≤ n ∧ n < 0x10000000000000000 then .ok (UInt64.ofNat n.toNat)
    else .error (.outOfRange n expected)
  | v => .error (.wrongType v expected)

/-- A whole number from `-2 ^ 63` to `2 ^ 63 - 1`. -/
def decodeSigned : Decoder Int64
  | .number (.whole n) =>
    if -0x8000000000000000 ≤ n ∧ n < 0x8000000000000000 then .ok (Int64.ofInt n)
    else .error (.outOfRange n .signed)
  | v => .error (.wrongType v .signed)

/-- The member of that name, if there is one. -/
def member? {α : Type} (v : Value) (name : String) (decode : Decoder α) :
    Except DecodeError (Option α) :=
  match v.get? name with
  | some w => some <$> decode w
  | none => .ok none

/-- A member that was found, or the complaint that it is missing. -/
def required {α : Type} (name : String) : Option α → Except DecodeError α
  | some a => .ok a
  | none => .error (.missingField name)

/-- The item at a place of a record that is written as an array. -/
def item {α : Type} (items : List Value) (place : Nat) (name : String) (fields : Nat)
    (decode : Decoder α) : Except DecodeError α :=
  match items[place]? with
  | some v => decode v
  | none => .error (.tooFewItems items.length name fields)

/-- Refuses an array with more items than the record has fields. -/
def noMore (items : List Value) (fields : Nat) : Except DecodeError Unit :=
  if items.length ≤ fields then .ok () else .error (.tooManyItems items.length)

end CodeIndex.Json
