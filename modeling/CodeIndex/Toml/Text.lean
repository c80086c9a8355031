import CodeIndex.Toml.Scalar

/-! White space, comments, quoted strings and keys. -/

namespace CodeIndex.Toml

def isSpace (c : Char) : Bool := c == ' ' || c == '\t'

def skipSpace (cs : List Char) : List Char := cs.dropWhile isSpace

def takeNewline? : List Char → Option (List Char)
  | '\n' :: rest => some rest
  | '\r' :: '\n' :: rest => some rest
  | _ => none

/-- A character that may stand in a comment or in a string: no control character but the tab. -/
def isPlain (c : Char) : Bool := c == '\t' || (0x20 ≤ c.toNat && c.toNat != 0x7F)

def skipComment (cs : List Char) : List Char :=
  match cs with
  | '#' :: rest => rest.dropWhile isPlain
  | cs => cs

/-- Skips white space, line ends and comments. -/
def skipBlank : Nat → List Char → List Char
  | 0, cs => cs
  | fuel + 1, cs =>
    let cs := skipComment (skipSpace cs)
    match takeNewline? cs with
    | some rest => skipBlank fuel rest
    | none => cs

def skipBlanks (cs : List Char) : List Char := skipBlank cs.length cs

/-- The character of a code point that is one. -/
def scalarValue? (n : Nat) : Option Char :=
  if h : n.isValidChar then some ⟨n.toUInt32, by
    rcases h with h | ⟨h₁, h₂⟩
    · exact .inl (by simp [Nat.toUInt32]; omega)
    · exact .inr (by simp [Nat.toUInt32]; omega)⟩
  else none

/-- A character written with `count` hexadecimal digits. -/
def takeCodePoint? (count : Nat) (cs : List Char) : Option (Char × List Char) :=
  let ds := cs.take count
  if ds.length = count ∧ ds.all isHexadecimal then
    (scalarValue? (numeralValue 16 ds)).map (·, cs.drop count)
  else none

/-- The escape after a backslash. -/
def takeEscape? : List Char → Option (Char × List Char)
  | 'b' :: rest => some ('\x08', rest)
  | 't' :: rest => some ('\t', rest)
  | 'n' :: rest => some ('\n', rest)
  | 'f' :: rest => some ('\x0c', rest)
  | 'r' :: rest => some ('\r', rest)
  | 'e' :: rest => some ('\x1b', rest)
  | '"' :: rest => some ('"', rest)
  | '\\' :: rest => some ('\\', rest)
  | 'x' :: rest => takeCodePoint? 2 rest
  | 'u' :: rest => takeCodePoint? 4 rest
  | 'U' :: rest => takeCodePoint? 8 rest
  | _ => none

/-- A text and what follows it. -/
abbrev Taken := Option (List Char × List Char)

/-- Puts a character before a text that was taken. -/
def before (c : Char) (t : Taken) : Taken := t.map fun (text, rest) => (c :: text, rest)

/-- A string on one line, after its opening quote; a single quote opens one without escapes. -/
def takeLine (quote : Char) : Nat → List Char → Taken
  | 0, _ => none
  | _, [] => none
  | fuel + 1, c :: rest =>
    if c = quote then some ([], rest)
    else if c = '\\' ∧ quote = '"' then
      match takeEscape? rest with
      | some (e, rest) => before e (takeLine quote fuel rest)
      | none => none
    else if isPlain c then before c (takeLine quote fuel rest)
    else none

/-- The rest after a backslash at the end of a line: the line end and all white space after it. -/
def takeContinuation? (cs : List Char) : Option (List Char) :=
  (takeNewline? (skipSpace cs)).map fun rest =>
    rest.dropWhile fun c => isSpace c || c == '\n' || c == '\r'

/-- A string on several lines, after its opening quotes.  Up to two quotes may stand before the
closing ones. -/
def takeLines (quote : Char) : Nat → List Char → Taken
  | 0, _ => none
  | _, [] => none
  | fuel + 1, c :: rest =>
    if c = quote then
      let quotes := (c :: rest).takeWhile (· == quote)
      let after := (c :: rest).dropWhile (· == quote)
      if quotes.length < 3 then before c (takeLines quote fuel rest)
      else if quotes.length ≤ 5 then some (quotes.drop 3, after)
      else none
    else if c = '\\' ∧ quote = '"' then
      match takeContinuation? rest with
      | some rest => takeLines quote fuel rest
      | none =>
        match takeEscape? rest with
        | some (e, rest) => before e (takeLines quote fuel rest)
        | none => none
    else match takeNewline? (c :: rest) with
      | some after =>
        if c = '\r' then before '\r' (before '\n' (takeLines quote fuel after))
        else before '\n' (takeLines quote fuel after)
      | none => if isPlain c then before c (takeLines quote fuel rest) else none

/-- Skips a line end directly after the opening quotes. -/
def skipNewline (cs : List Char) : List Char := (takeNewline? cs).getD cs

/-- A string of any of the four kinds. -/
def takeString? (cs : List Char) : Taken :=
  match cs with
  | '"' :: '"' :: '"' :: rest => takeLines '"' (rest.length + 1) (skipNewline rest)
  | '\'' :: '\'' :: '\'' :: rest => takeLines '\'' (rest.length + 1) (skipNewline rest)
  | '"' :: rest => takeLine '"' (rest.length + 1) rest
  | '\'' :: rest => takeLine '\'' (rest.length + 1) rest
  | _ => none

def isKeyChar (c : Char) : Bool := c.isAlphanum || c == '_' || c == '-'

/-- One part of a key: bare, or a string on one line. -/
def takeKeyPart? (cs : List Char) : Taken :=
  match cs with
  | '"' :: rest => takeLine '"' (rest.length + 1) rest
  | '\'' :: rest => takeLine '\'' (rest.length + 1) rest
  | cs =>
    let part := cs.takeWhile isKeyChar
    if part.isEmpty then none else some (part, cs.dropWhile isKeyChar)

/-- The parts of a key after those read before, with dots between them. -/
def takeKeyFrom? (done : List String) : Nat → List Char → Option (List String × List Char)
  | 0, _ => none
  | fuel + 1, cs => do
    let (part, rest) ← takeKeyPart? (skipSpace cs)
    let done := done ++ [String.ofList part]
    match skipSpace rest with
    | '.' :: rest => takeKeyFrom? done fuel rest
    | rest => some (done, rest)

/-- A key, with the white space around it. -/
def takeKey? (cs : List Char) : Option (List String × List Char) :=
  takeKeyFrom? [] (cs.length + 1) cs

end CodeIndex.Toml
