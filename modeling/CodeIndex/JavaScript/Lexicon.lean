import CodeIndex.Parsing.Run
import CodeIndex.Text.Blank

/-! The terminals of JavaScript: how far each reaches at the start of a text. -/

namespace CodeIndex.JavaScript

/-- White space between tokens, with the marks that count as such. -/
def isGap (c : Char) : Bool :=
  Text.isBlank c || c == '\uFEFF' || c == '\u2060' || c == '\u200B'

/-- A character of an identifier that is not its first. -/
def isNamePart (c : Char) : Bool :=
  0x1F < c.toNat && !isGap c && !(":;`\"'@#.,|^&<=>+-*/\\%?!~()[]\x7b\x7d".toList.contains c)

def isNameStart (c : Char) : Bool := isNamePart c && !c.isDigit

def isHex (c : Char) : Bool :=
  c.isDigit || ('a' ≤ c && c ≤ 'f') || ('A' ≤ c && c ≤ 'F')

/-- A line ends before one of these. -/
def isLineEnd (c : Char) : Bool := c == '\n' || c == '\r' || c == '\u2028' || c == '\u2029'

/-- The length of a code point escape of an identifier: four digits, or any number in braces. -/
def nameEscape : List Char → Option Nat
  | '\\' :: 'u' :: '\x7b' :: rest =>
    let digits := rest.takeWhile isHex
    match digits, rest.drop digits.length with
    | _ :: _, '\x7d' :: _ => some (digits.length + 4)
    | _, _ => none
  | '\\' :: 'u' :: a :: b :: c :: d :: _ =>
    if isHex a && isHex b && isHex c && isHex d then some 6 else none
  | _ => none

/-- How far the rest of an identifier reaches. -/
def nameRest : Nat → List Char → Nat
  | 0, _ => 0
  | fuel + 1, cs =>
    match cs with
    | [] => 0
    | c :: rest =>
      if isNamePart c then nameRest fuel rest + 1
      else match nameEscape cs with
        | some n => nameRest fuel (cs.drop n) + n
        | none => 0

def nameLength (cs : List Char) : Option Nat :=
  match cs with
  | [] => none
  | c :: rest =>
    if isNameStart c then some (nameRest rest.length rest + 1)
    else (nameEscape cs).map fun n => nameRest cs.length (cs.drop n) + n

/-- Digits with single underscores between them. -/
def digitRun (isDigit : Char → Bool) : List Char → Nat
  | [] => 0
  | c :: rest =>
    if isDigit c then digitRun isDigit rest + 1
    else if c = '_' then
      match rest with
      | d :: _ => if isDigit d then digitRun isDigit rest + 1 else 0
      | [] => 0
    else 0

/-- A run starts with a digit. -/
def digits (isDigit : Char → Bool) (cs : List Char) : Nat :=
  match cs with
  | c :: _ => if isDigit c then digitRun isDigit cs else 0
  | [] => 0

def exponentLength : List Char → Nat
  | e :: rest =>
    if e = 'e' ∨ e = 'E' then
      match rest with
      | c :: more =>
        if c = '+' ∨ c = '-' then
          match digits Char.isDigit more with
          | 0 => 0
          | n => n + 2
        else match digits Char.isDigit rest with
          | 0 => 0
          | n => n + 1
      | [] => 0
    else 0
  | [] => 0

/-- The length of a literal with a base, and of one without digits 0. -/
def basedLength (cs : List Char) : Nat :=
  let after (isDigit : Char → Bool) (rest : List Char) : Nat :=
    match digits isDigit rest with
    | 0 => 0
    | n => n + 2
  match cs with
  | '0' :: b :: rest =>
    if b = 'x' ∨ b = 'X' then after isHex rest
    else if b = 'b' ∨ b = 'B' then after (fun c => c == '0' || c == '1') rest
    else if b = 'o' ∨ b = 'O' then after (fun c => '0' ≤ c && c ≤ '7') rest
    else 0
  | _ => 0

/-- A whole part may stand before a point or an exponent if it is 0 or has at most one leading
zero. -/
def isWholePart : List Char → Bool
  | ['0'] => true
  | '0' :: d :: _ => d.isDigit && d != '0'
  | d :: _ => d.isDigit
  | [] => false

def numberLength (cs : List Char) : Option Nat :=
  let based := basedLength cs
  if 0 < based then
    some (if cs[based]? = some 'n' then based + 1 else based)
  else
    let whole := digits Char.isDigit cs
    let rest := cs.drop whole
    let fraction (more : List Char) : Nat :=
      let n := digits Char.isDigit more
      n + exponentLength (more.drop n)
    if whole = 0 then
      match cs with
      | '.' :: more => if 0 < digits Char.isDigit more then some (fraction more + 1) else none
      | _ => none
    else
      let plain := isWholePart (cs.take whole)
      match rest with
      | '.' :: more => some (if plain then whole + 1 + fraction more else whole)
      | 'n' :: _ => some (whole + 1)
      | _ => some (if plain then whole + exponentLength rest else whole)

/-- How far a block comment reaches after its opening. -/
def blockRest : List Char → Option Nat
  | [] => none
  | '*' :: '/' :: _ => some 2
  | _ :: rest => (blockRest rest).map (· + 1)

def commentLength : List Char → Option Nat
  | '/' :: '/' :: rest => some ((rest.takeWhile (!isLineEnd ·)).length + 2)
  | '/' :: '*' :: rest => (blockRest rest).map (· + 2)
  | _ => none

def escapeLength : List Char → Option Nat
  | '\\' :: c :: rest =>
    if c = 'x' then
      match rest with
      | a :: b :: _ => if isHex a && isHex b then some 4 else none
      | _ => none
    else if c = 'u' then nameEscape ('\\' :: c :: rest)
    else if '0' ≤ c ∧ c ≤ '7' then
      some (1 + ((c :: rest).take 3 |>.takeWhile fun d => '0' ≤ d && d ≤ '7').length)
    else if c = '\r' ∨ c = '?' then
      match rest with
      | d :: _ => if d = '\n' ∨ d = '\u2028' ∨ d = '\u2029' then some 3 else some 2
      | [] => some 2
    else some 2
  | _ => none

/-- How far a class in a regular expression reaches after its opening. -/
def regexClass : List Char → Option Nat
  | [] => none
  | ']' :: _ => some 1
  | '\n' :: _ => none
  | '\\' :: c :: rest => if c = '\n' then none else (regexClass rest).map (· + 2)
  | ['\\'] => none
  | _ :: rest => (regexClass rest).map (· + 1)

/-- How far the pattern of a regular expression reaches. -/
def regexReach : Nat → List Char → Nat
  | 0, _ => 0
  | fuel + 1, cs =>
    match cs with
    | [] => 0
    | '/' :: _ => 0
    | '\n' :: _ => 0
    | '[' :: rest =>
      match regexClass rest with
      | some n => regexReach fuel (rest.drop n) + n + 1
      | none => 0
    | '\\' :: c :: rest => if c = '\n' then 0 else regexReach fuel rest + 2
    | ['\\'] => 0
    | _ :: rest => regexReach fuel rest + 1

/-- A length, unless it is 0. -/
def positive (n : Nat) : Option Nat := if n = 0 then none else some n

def regexLength (cs : List Char) : Option Nat := positive (regexReach cs.length cs)

/-- How far a string reaches in which `&` may not start a reference. -/
def jsxReach (quote : Char) : List Char → Nat
  | [] => 0
  | '&' :: c :: rest =>
    if c = '#' ∨ c.isAlpha then 0
    else jsxReach quote rest + 2
  | '&' :: [] => 0
  | c :: rest => if c = quote then 0 else jsxReach quote rest + 1

def referenceLength : List Char → Option Nat
  | '&' :: '#' :: x :: rest =>
    let ended (n : Nat) (more : List Char) : Option Nat :=
      if more.head? = some ';' then some n else none
    if x = 'x' ∨ x = 'X' then
      let ds := rest.takeWhile isHex
      if 1 ≤ ds.length ∧ ds.length ≤ 6 then ended (ds.length + 4) (rest.drop ds.length) else none
    else
      let ds := (x :: rest).takeWhile Char.isDigit
      if 1 ≤ ds.length ∧ ds.length ≤ 5 then ended (ds.length + 3) ((x :: rest).drop ds.length)
      else none
  | '&' :: rest =>
    let ds := rest.takeWhile Char.isAlpha
    if 1 ≤ ds.length ∧ ds.length ≤ 30 ∧ (rest.drop ds.length).head? = some ';' then
      some (ds.length + 2)
    else none
  | _ => none

def hyphenatedLength (cs : List Char) : Option Nat :=
  match cs with
  | c :: rest =>
    let isPart (d : Char) : Bool := d.isAlphanum || d == '_' || d == '$'
    if c.isAlpha || c == '_' || c == '$' then
      let head := (rest.takeWhile isPart).length
      match rest.drop head with
      | '-' :: more => some (head + 2 + (more.takeWhile fun d => isPart d || d == '-').length)
      | _ => none
    else none
  | [] => none

/-- The length of `static` and `get` with the line that `get` ends. -/
def staticGetLength (cs : List Char) : Option Nat :=
  let word := "static".toList
  if word.isPrefixOf cs then
    let rest := cs.drop word.length
    let gap := (rest.takeWhile Text.isBlank).length
    match rest.drop gap with
    | 'g' :: 'e' :: 't' :: more =>
      let blanks := more.takeWhile Text.isBlank
      let upToLast := (blanks.reverse.dropWhile (· != '\n')).length
      if 0 < gap ∧ 0 < upToLast then some (word.length + gap + 3 + upToLast) else none
    | _ => none
  else none

end CodeIndex.JavaScript
