import CodeIndex.Toml.Table
import CodeIndex.Toml.Text

/-! Reading TOML documents. -/

namespace CodeIndex.Toml

/-- The end of a value without quotes and brackets. -/
def endsScalar (c : Char) : Bool :=
  isSpace c || c == '\n' || c == '\r' || c == ',' || c == ']' || c == '\x7d' || c == '#'

/-- The text of a value without quotes and brackets; a single space may divide a date from a
time. -/
def takeScalarText (cs : List Char) : List Char × List Char :=
  let word := cs.takeWhile (!endsScalar ·)
  let rest := cs.dropWhile (!endsScalar ·)
  match takeDate? word, rest with
  | some [], ' ' :: c :: more =>
    if c.isDigit then
      (word ++ ' ' :: (c :: more).takeWhile (!endsScalar ·), (c :: more).dropWhile (!endsScalar ·))
    else (word, rest)
  | _, _ => (word, rest)

/-- A reader of values. -/
abbrev ValueReader := List Char → Option (Value × List Char)

/-- The items of an array, up to the closing bracket; the last may have a comma after it. -/
def takeItems (value : ValueReader) (done : List Value) : Nat → ValueReader
  | 0, _ => none
  | fuel + 1, cs =>
    match skipBlanks cs with
    | ']' :: rest => some (.array done, rest)
    | cs => do
      let (v, rest) ← value cs
      let done := done ++ [v]
      match skipBlanks rest with
      | ',' :: rest => takeItems value done fuel rest
      | ']' :: rest => some (.array done, rest)
      | _ => none

/-- A key with its value. -/
def takePair? (value : ValueReader) (cs : List Char) :
    Option ((List String × Value) × List Char) := do
  let (key, rest) ← takeKey? cs
  match rest with
  | '=' :: rest => do
    let (v, rest) ← value (skipSpace rest)
    pure ((key, v), rest)
  | _ => none

/-- The entries of a table in braces, up to the closing brace; the last may have a comma after
it. -/
def takeEntries (value : ValueReader) (done : Entries) : Nat → ValueReader
  | 0, _ => none
  | fuel + 1, cs =>
    match skipBlanks cs with
    | '\x7d' :: rest => some ((Node.table .header done).toValue, rest)
    | cs => do
      let ((key, v), rest) ← takePair? value cs
      let done ← putValue key v done
      match skipBlanks rest with
      | ',' :: rest => takeEntries value done fuel rest
      | '\x7d' :: rest => some ((Node.table .header done).toValue, rest)
      | _ => none

/-- A value that nests at most `depth` arrays and tables. -/
def takeValue? : Nat → ValueReader
  | depth, cs =>
    match cs with
    | '"' :: _ => (takeString? cs).map fun (s, rest) => (.string (String.ofList s), rest)
    | '\'' :: _ => (takeString? cs).map fun (s, rest) => (.string (String.ofList s), rest)
    | '[' :: rest =>
      match depth with
      | 0 => none
      | depth + 1 => takeItems (takeValue? depth) [] (rest.length + 1) rest
    | '\x7b' :: rest =>
      match depth with
      | 0 => none
      | depth + 1 => takeEntries (takeValue? depth) [] (rest.length + 1) rest
    | cs =>
      let (word, rest) := takeScalarText cs
      (scalar? word).map (·, rest)

/-- The deepest nesting of arrays and tables in a value. -/
def maxDepth : Nat := 80

/-- A document that is being read: its tables, and the table that pairs are put into. -/
structure Document where
  entries : Entries := []
  path : List String := []

/-- The document with a table opened by its header. -/
def Document.openHeader (d : Document) (list : Bool) (key : List String) : Option Document :=
  match key.getLast? with
  | none => none
  | some name =>
    (Node.within key.dropLast (if list then openItem name else openTable name) d.entries).map
      fun es => ⟨es, key⟩

/-- The document with a pair put into the open table. -/
def Document.put (d : Document) (key : List String) (v : Value) : Option Document :=
  (Node.within d.path (putValue key v) d.entries).map fun es => { d with entries := es }

/-- The rest of a line after its content: nothing but a comment. -/
def takeLineEnd? (cs : List Char) : Option (List Char) :=
  match skipComment (skipSpace cs) with
  | [] => some []
  | cs => takeNewline? cs

def takeExpression? (d : Document) (cs : List Char) : Option (Document × List Char) :=
  match cs with
  | '[' :: '[' :: rest => do
    let (key, rest) ← takeKey? rest
    match rest with
    | ']' :: ']' :: rest => (d.openHeader true key).map (·, rest)
    | _ => none
  | '[' :: rest => do
    let (key, rest) ← takeKey? rest
    match rest with
    | ']' :: rest => (d.openHeader false key).map (·, rest)
    | _ => none
  | cs => do
    let ((key, v), rest) ← takePair? (takeValue? maxDepth) cs
    (d.put key v).map (·, rest)

def readLines : Nat → Document → List Char → Option Document
  | 0, _, _ => none
  | fuel + 1, d, cs =>
    match skipBlanks cs with
    | [] => some d
    | cs => do
      let (d, rest) ← takeExpression? d cs
      readLines fuel d (← takeLineEnd? rest)

/-- The table of a document; a byte order mark in front is skipped. -/
def read? (text : String) : Option (List (String × Value)) :=
  let cs := match text.toList with
    | '\uFEFF' :: rest => rest
    | cs => cs
  (readLines (cs.length + 1) {} cs).map fun d => entriesToValues d.entries

end CodeIndex.Toml
