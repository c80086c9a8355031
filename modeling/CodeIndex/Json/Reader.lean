import CodeIndex.Json.Value
import CodeIndex.Numeric.Numeral
import CodeIndex.Numeric.Reading

/-! A strict JSON reader.  It accepts one value with white space around it, nested at most 127
deep, and refuses control characters in strings, lone surrogates and numbers beyond the doubles.  A
value that nobody wants is skipped: it must follow the grammar, but its depth, its surrogates and its
numbers are not looked at. -/

namespace CodeIndex.Json

open Numeric

/-- A reader takes a value from the front of the text and gives the rest. -/
abbrev Reader (α : Type) := List Char → Option (α × List Char)

def isSpace (c : Char) : Bool := c == ' ' || c == '\n' || c == '\t' || c == '\r'

def skipSpace (cs : List Char) : List Char := cs.dropWhile isSpace

def hexValue? (c : Char) : Option Nat :=
  if c.isDigit then some (c.toNat - 48)
  else if 'a' ≤ c ∧ c ≤ 'f' then some (c.toNat - 87)
  else if 'A' ≤ c ∧ c ≤ 'F' then some (c.toNat - 55)
  else none

def readHex4 : Reader Nat
  | a :: b :: c :: d :: rest => do
    let a ← hexValue? a
    let b ← hexValue? b
    let c ← hexValue? c
    let d ← hexValue? d
    pure (((a * 16 + b) * 16 + c) * 16 + d, rest)
  | _ => none

/-- The rest of an escape after its `u`: one code unit, or a surrogate pair. -/
def readUnicode (cs : List Char) : Option (Char × List Char) := do
  let (high, rest) ← readHex4 cs
  if 0xDC00 ≤ high ∧ high ≤ 0xDFFF then none
  else if 0xD800 ≤ high ∧ high ≤ 0xDBFF then
    match rest with
    | '\\' :: 'u' :: rest => do
      let (low, rest) ← readHex4 rest
      if 0xDC00 ≤ low ∧ low ≤ 0xDFFF then
        pure (Char.ofNat (0x10000 + (high - 0xD800) * 0x400 + (low - 0xDC00)), rest)
      else none
    | _ => none
  else pure (Char.ofNat high, rest)

/-- One character of a string, escaped or not; the closing quote is none. -/
def readStringChar : Reader Char
  | '\\' :: c :: rest =>
    match c with
    | '"' => some ('"', rest)
    | '\\' => some ('\\', rest)
    | '/' => some ('/', rest)
    | 'b' => some ('\x08', rest)
    | 'f' => some ('\x0c', rest)
    | 'n' => some ('\n', rest)
    | 'r' => some ('\r', rest)
    | 't' => some ('\t', rest)
    | 'u' => readUnicode rest
    | _ => none
  | c :: rest => if c = '\\' ∨ c = '"' ∨ c.toNat < 0x20 then none else some (c, rest)
  | [] => none

/-- The characters up to the closing quote, onto those read before in reverse. -/
def readStringOnto (done : List Char) : Nat → Reader String
  | _, '"' :: rest => some (String.ofList done.reverse, rest)
  | 0, _ => none
  | fuel + 1, cs => do
    let (c, rest) ← readStringChar cs
    readStringOnto (c :: done) fuel rest

def readString (cs : List Char) : Option (String × List Char) := readStringOnto [] cs.length cs

/-- The digits of a numeral as far as they fit into 64 bits, and how many places were left out. -/
structure Significand where
  value : Nat
  dropped : Nat
  full : Bool

/-- Takes in one more digit; once a digit does not fit, none does. -/
def Significand.add (s : Significand) (d : Nat) : Significand :=
  if s.full || s.value * 10 + d ≥ 0x10000000000000000 then
    { s with dropped := s.dropped + 1, full := true }
  else { s with value := s.value * 10 + d }

def Significand.ofDigits (s : Significand) (ds : List Char) : Significand :=
  ds.foldl (fun s c => s.add (c.toNat - 48)) s

/-- Decimal digits, at least one. -/
def readDigits (cs : List Char) : Option (List Char × List Char) :=
  let ds := cs.takeWhile Char.isDigit
  if ds.isEmpty then none else some (ds, cs.dropWhile Char.isDigit)

/-- The digits before the point; a zero stands alone. -/
def readWhole (cs : List Char) : Option (List Char × List Char) :=
  match readDigits cs with
  | some ('0' :: _ :: _, _) => none
  | digits => digits

/-- A point and the digits behind it, or nothing. -/
def readFraction : Reader (Option (List Char))
  | '.' :: cs => (readDigits cs).map fun (ds, rest) => (some ds, rest)
  | cs => some (none, cs)

/-- The exponent that digits with a sign stand for; it stops where the doubles have long ended. -/
def exponentValue (negative : Bool) (ds : List Char) : Int :=
  let n : Int := min (digitsValue ds) 0x80000000
  if negative then -n else n

/-- A mark, a sign if there is one, and the digits of the exponent, or nothing. -/
def readExponent : Reader (Option Int)
  | [] => some (none, [])
  | c :: cs =>
    if c = 'e' ∨ c = 'E' then
      let (negative, cs) := signAndRest cs
      (readDigits cs).map fun (ds, rest) => (some (exponentValue negative ds), rest)
    else some (none, c :: cs)

/-- The parts of a numeral without its sign. -/
structure Parts where
  whole : List Char
  fraction : Option (List Char)
  exponent : Option Int

def readParts (cs : List Char) : Option (Parts × List Char) := do
  let (whole, rest) ← readWhole cs
  let (fraction, rest) ← readFraction rest
  let (exponent, rest) ← readExponent rest
  pure (⟨whole, fraction, exponent⟩, rest)

/-- Whole numbers are kept exact; a negative one that does not fit, and minus zero, are not. -/
def wholeNumber (negative : Bool) (n : Nat) : Number :=
  if !negative then .whole n
  else if n = 0 ∨ n > 0x8000000000000000 then .double (-(Float.ofNat n))
  else .whole (-(n : Int))

def Parts.double? (p : Parts) : Option Float :=
  let s := Significand.ofDigits ⟨0, 0, false⟩ p.whole
  let fs := p.fraction.getD []
  let t := Significand.ofDigits ⟨s.value, 0, false⟩ fs
  let places : Int := (s.dropped : Int) - (fs.length - t.dropped : Nat)
  scaleDecimal t.value (places + p.exponent.getD 0)

/-- The number that the parts stand for, if it is not beyond the doubles. -/
def Parts.number? (negative : Bool) (p : Parts) : Option Number :=
  if p.fraction.isNone && p.exponent.isNone && digitsValue p.whole < 0x10000000000000000 then
    some (wholeNumber negative (digitsValue p.whole))
  else p.double?.map fun x => .double (if negative then -x else x)

def readMagnitude (negative : Bool) (cs : List Char) : Option (Number × List Char) := do
  let (parts, rest) ← readParts cs
  let n ← parts.number? negative
  pure (n, rest)

def readNumber : Reader Number
  | '-' :: cs => readMagnitude true cs
  | cs => readMagnitude false cs

/-- The entries after those read before, which are in reverse, up to the closing character. -/
def readMore {α : Type} (close : Char) (entry : Reader α) (done : List α) : Nat → Reader (List α)
  | 0, _ => none
  | fuel + 1, cs =>
    match skipSpace cs with
    | [] => none
    | c :: rest =>
      if c = close then some (done.reverse, rest)
      else if c = ',' then do
        let (a, rest) ← entry (skipSpace rest)
        readMore close entry (a :: done) fuel rest
      else none

/-- The entries of an array or an object up to its closing character. -/
def readEntries {α : Type} (close : Char) (entry : Reader α) (cs : List Char) :
    Option (List α × List Char) :=
  match skipSpace cs with
  | [] => none
  | c :: rest =>
    if c = close then some ([], rest)
    else do
      let (a, rest) ← entry (c :: rest)
      readMore close entry [a] (rest.length + 1) rest

/-- One member of an object. -/
def readMember (item : Reader Value) : Reader (String × Value)
  | '"' :: rest => do
    let (key, rest) ← readString rest
    match skipSpace rest with
    | ':' :: rest => do
      let (v, rest) ← item (skipSpace rest)
      pure ((key, v), rest)
    | _ => none
  | _ => none

/-- The word, if the text starts with it. -/
def readWord (word : List Char) (v : Value) (cs : List Char) : Option (Value × List Char) :=
  if word.isPrefixOf cs then some (v, cs.drop word.length) else none

/-- A value that holds no others. -/
def readScalar : Reader Value
  | '"' :: rest => (readString rest).map fun (s, rest) => (.string s, rest)
  | 'n' :: rest => readWord "ull".toList .null rest
  | 't' :: rest => readWord "rue".toList (.bool true) rest
  | 'f' :: rest => readWord "alse".toList (.bool false) rest
  | cs => (readNumber cs).map fun (n, rest) => (.number n, rest)

/-- An array or an object, its items as the reader given takes them. -/
def readContainer (item : Reader Value) : Reader Value
  | '[' :: rest => (readEntries ']' item rest).map fun (vs, rest) => (.array vs, rest)
  | '{' :: rest =>
    (readEntries '}' (readMember item) rest).map fun (ms, rest) => (.object ms, rest)
  | _ => none

/-- A value that nests at most `depth` containers. -/
def readValue : Nat → Reader Value
  | 0, cs => readScalar cs
  | depth + 1, cs => (readContainer (readValue depth) cs).or (readScalar cs)

def maxDepth : Nat := 127

/-- What a text holds besides white space. -/
def readWith? (item : Reader Value) (text : String) : Option Value :=
  match item (skipSpace text.toList) with
  | some (v, rest) => if (skipSpace rest).isEmpty then some v else none
  | none => none

/-- The value of a text that holds one value and white space. -/
def read? (text : String) : Option Value := readWith? (readValue maxDepth) text

/-! ### Skipping -/

/-- One character of a string, escaped or not; which code unit an escape stands for does not count. -/
def skipStringChar : List Char → Option (List Char)
  | '\\' :: c :: rest =>
    if c = 'u' then (readHex4 rest).map (·.2)
    else if c ∈ ['"', '\\', '/', 'b', 'f', 'n', 'r', 't'] then some rest else none
  | c :: rest => if c = '\\' ∨ c = '"' ∨ c.toNat < 0x20 then none else some rest
  | [] => none

/-- The text behind the closing quote. -/
def skipString : Nat → List Char → Option (List Char)
  | _, '"' :: rest => some rest
  | 0, _ => none
  | fuel + 1, cs => (skipStringChar cs).bind (skipString fuel)

/-- The text behind a value that holds no others. -/
def skipScalar : List Char → Option (List Char)
  | '"' :: rest => skipString rest.length rest
  | 'n' :: rest => (readWord "ull".toList .null rest).map (·.2)
  | 't' :: rest => (readWord "rue".toList (.bool true) rest).map (·.2)
  | 'f' :: rest => (readWord "alse".toList (.bool false) rest).map (·.2)
  | '-' :: rest => (readParts rest).map (·.2)
  | cs => (readParts cs).map (·.2)

/-- Nothing is kept of an item that is skipped. -/
def skipped (item : List Char → Option (List Char)) : Reader Unit := fun cs =>
  (item cs).map fun rest => ((), rest)

def skipMember (item : List Char → Option (List Char)) : List Char → Option (List Char)
  | '"' :: rest => do
    match skipSpace (← skipString rest.length rest) with
    | ':' :: rest => item (skipSpace rest)
    | _ => none
  | _ => none

def skipContainer (item : List Char → Option (List Char)) : List Char → Option (List Char)
  | '[' :: rest => (readEntries ']' (skipped item) rest).map (·.2)
  | '{' :: rest => (readEntries '}' (skipped (skipMember item)) rest).map (·.2)
  | _ => none

/-- The text behind a value that nests at most `depth` containers. -/
def skipNested : Nat → List Char → Option (List Char)
  | 0, cs => skipScalar cs
  | depth + 1, cs => (skipContainer (skipNested depth) cs).or (skipScalar cs)

/-- The text behind a value, which cannot nest deeper than it is long. -/
def skipValue (cs : List Char) : Option (List Char) := skipNested cs.length cs

/-! ### Records -/

/-- A member of a record, if it has one of the names that are wanted; any other is skipped. -/
def readField (item : Reader Value) (names : List String) : Reader (Option (String × Value))
  | '"' :: rest => do
    let (key, rest) ← readString rest
    match skipSpace rest with
    | ':' :: rest =>
      if key ∈ names then
        let (v, rest) ← item (skipSpace rest)
        pure (some (key, v), rest)
      else (skipValue (skipSpace rest)).map fun rest => (none, rest)
    | _ => none
  | _ => none

/-- A record: an object with the members that are wanted, or an array of them. -/
def readRecord (item : Reader Value) (names : List String) : Reader Value
  | '[' :: rest => (readEntries ']' item rest).map fun (vs, rest) => (.array vs, rest)
  | '{' :: rest =>
    (readEntries '}' (readField item names) rest).map fun (ms, rest) =>
      (.object (ms.filterMap id), rest)
  | _ => none

def readList (item : Reader Value) : Reader Value
  | '[' :: rest => (readEntries ']' item rest).map fun (vs, rest) => (.array vs, rest)
  | _ => none

end CodeIndex.Json
