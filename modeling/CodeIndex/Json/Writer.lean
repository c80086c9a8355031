import CodeIndex.Json.Value
import CodeIndex.Numeric.Shortest

/-! Writing JSON, compactly or indented, with doubles as their shortest decimals. -/

namespace CodeIndex.Json

open Numeric

def zeros (n : Nat) : List Char := List.replicate n '0'

/-- A shortest decimal is positional while its leading digit lies between the fifth place after the
point and the sixteenth before it, with at least one digit after the point; else it has one digit
before the point and an exponent with its sign. -/
def decimalText (d : Decimal) : List Char :=
  let digits := d.text
  let count : Int := digits.length
  let point := count + d.exponent
  if d.digits = 0 then "0.0".toList
  else if 0 ≤ d.exponent ∧ point ≤ 16 then digits ++ zeros d.exponent.toNat ++ ['.', '0']
  else if 0 < point ∧ point ≤ 16 then digits.take point.toNat ++ '.' :: digits.drop point.toNat
  else if -5 < point ∧ point ≤ 0 then '0' :: '.' :: zeros (-point).toNat ++ digits
  else
    let exponent := point - 1
    let head := match digits with
      | [] => []
      | [c] => [c]
      | c :: rest => c :: '.' :: rest
    let sign := if exponent < 0 then '-' else '+'
    head ++ 'e' :: sign :: Nat.toDigits 10 exponent.natAbs

/-- The numeral of a double, or `none` for one that is not finite. -/
def floatText? (x : Float) : Option String :=
  (Binary64.ofFloat? x).map fun b =>
    String.ofList ((if b.negative then ['-'] else []) ++ decimalText b.shortest)

def Number.text : Number → String
  | .whole n => toString n
  | .double x => (floatText? x).getD "null"

/-- One hexadecimal digit, in lower case. -/
def hexDigit (n : Nat) : Char := if n < 10 then Char.ofNat (48 + n) else Char.ofNat (87 + n)

/-- The last `digits` hexadecimal digits of a number. -/
def hexText : Nat → Nat → List Char
  | 0, _ => []
  | digits + 1, n => hexText digits (n / 16) ++ [hexDigit (n % 16)]

/-- A character inside quotes: controls, quotes and backslashes are escaped. -/
def escapeChar (c : Char) : List Char :=
  match c with
  | '"' => ['\\', '"']
  | '\\' => ['\\', '\\']
  | '\n' => ['\\', 'n']
  | '\r' => ['\\', 'r']
  | '\t' => ['\\', 't']
  | '\x08' => ['\\', 'b']
  | '\x0c' => ['\\', 'f']
  | c => if c.toNat < 0x20 then '\\' :: 'u' :: hexText 4 c.toNat else [c]

/-- A string in quotes. -/
def quote (s : String) : String :=
  "\"" ++ String.ofList (s.toList.flatMap escapeChar) ++ "\""

mutual

/-- The compact text of a value. -/
def Value.compact : Value → String
  | .null => "null"
  | .bool b => if b then "true" else "false"
  | .number n => n.text
  | .string s => quote s
  | .array items => "[" ++ compactItems items ++ "]"
  | .object members => "\x7b" ++ compactMembers members ++ "\x7d"

def compactItems : List Value → String
  | [] => ""
  | [v] => v.compact
  | v :: rest => v.compact ++ "," ++ compactItems rest

def compactMembers : List (String × Value) → String
  | [] => ""
  | [(k, v)] => quote k ++ ":" ++ v.compact
  | (k, v) :: rest => quote k ++ ":" ++ v.compact ++ "," ++ compactMembers rest

end

/-- Two spaces for each level. -/
def indentation (level : Nat) : String := String.ofList (List.replicate (2 * level) ' ')

mutual

/-- The text of a value with an entry a line, at a level of indentation. -/
def Value.prettyAt (level : Nat) : Value → String
  | .array [] => "[]"
  | .array items => "[\n" ++ prettyItems (level + 1) items ++ "\n" ++ indentation level ++ "]"
  | .object [] => "\x7b\x7d"
  | .object members =>
    "\x7b\n" ++ prettyMembers (level + 1) members ++ "\n" ++ indentation level ++ "\x7d"
  | v => v.compact

def prettyItems (level : Nat) : List Value → String
  | [] => ""
  | [v] => indentation level ++ v.prettyAt level
  | v :: rest => indentation level ++ v.prettyAt level ++ ",\n" ++ prettyItems level rest

def prettyMembers (level : Nat) : List (String × Value) → String
  | [] => ""
  | [(k, v)] => indentation level ++ quote k ++ ": " ++ v.prettyAt level
  | (k, v) :: rest =>
    indentation level ++ quote k ++ ": " ++ v.prettyAt level ++ ",\n" ++ prettyMembers level rest

end

/-- The text of a value with an entry a line. -/
def Value.pretty (v : Value) : String := v.prettyAt 0

end CodeIndex.Json
