import CodeIndex.JavaScript.Grammar
import CodeIndex.JavaScript.Lexicon
import CodeIndex.JavaScript.Semicolon

/-! The tokens of JavaScript.  Which token comes next depends on what the grammar allows there: a
slash divides or starts a regular expression, and a line may end a statement. -/

namespace CodeIndex.JavaScript

open CodeIndex.Parsing

/-- The numbers of the terminals that the lexer tells apart. -/
structure Terminals where
  table : Table
  /-- Marks and operators with their numbers, the longest first. -/
  marks : List (List Char × Nat)
  words : Std.HashMap String Nat
  wordSet : TokenSet
  comment : Nat
  htmlComment : Nat
  semicolon : Nat
  templateChars : Nat
  ternary : Nat
  orOperator : Nat
  escape : Nat
  regexPattern : Nat
  regexEnd : Nat
  regexFlags : Nat
  doubleFragment : Nat
  singleFragment : Nat
  jsxText : Nat
  jsxDouble : Nat
  jsxSingle : Nat
  jsxIdentifier : Nat
  reference : Nat
  number : Nat
  privateName : Nat
  hashBang : Nat
  staticGet : Nat

/-- The names of terminals that are not written as they are named. -/
def tokenClasses : List String := [
  Table.finishName, Table.anyWordName, "identifier", "comment", "html_comment",
  "automatic_semicolon", "template_chars", "ternary_qmark", "escape_sequence", "regex_pattern",
  "regex_end", "regex_flags", "double_fragment", "single_fragment", "jsx_text",
  "jsx_double_fragment", "jsx_single_fragment", "jsx_identifier", "html_character_reference",
  "number", "private_property_identifier", "hash_bang_line", "static_get"]

def Terminals.ofTable (t : Table) : Terminals :=
  let literals := (t.names.toList.take t.terminals).filter fun n => !tokenClasses.contains n
  let isWord (n : String) : Bool := nameLength n.toList == some n.length
  let number (n : String) : Nat := t.numbers.getD n 0
  let words := literals.filter isWord
  let marks := (literals.filter fun n => !isWord n).map fun n => (n.toList, number n)
  { table := t
    marks := marks.mergeSort fun a b => b.1.length ≤ a.1.length
    words := words.foldl (fun m n => m.insert n (number n)) {}
    wordSet := words.foldl (fun s n => s.union (TokenSet.single (number n)))
      (TokenSet.single t.word)
    comment := number "comment"
    htmlComment := number "html_comment"
    semicolon := number "automatic_semicolon"
    templateChars := number "template_chars"
    ternary := number "ternary_qmark"
    orOperator := number "||"
    escape := number "escape_sequence"
    regexPattern := number "regex_pattern"
    regexEnd := number "regex_end"
    regexFlags := number "regex_flags"
    doubleFragment := number "double_fragment"
    singleFragment := number "single_fragment"
    jsxText := number "jsx_text"
    jsxDouble := number "jsx_double_fragment"
    jsxSingle := number "jsx_single_fragment"
    jsxIdentifier := number "jsx_identifier"
    reference := number "html_character_reference"
    number := number "number"
    privateName := number "private_property_identifier"
    hashBang := number "hash_bang_line"
    staticGet := number "static_get" }

def skip (c : Cursor) (n : Nat) : Cursor := ⟨c.pos + n, c.rest.drop n⟩

/-- The place after characters of one kind. -/
def skipWhile (p : Char → Bool) (c : Cursor) : Cursor := skip c (c.rest.takeWhile p).length

/-- The characters of a template up to a substitution, an escape or its end. -/
def templateReach : List Char → Option Nat
  | [] => none
  | '`' :: _ => some 0
  | '\\' :: _ => some 0
  | '$' :: '\x7b' :: _ => some 0
  | c :: rest => if c = '\x00' then none else (templateReach rest).map (· + 1)

/-- Text between tags: how far it reaches, and whether any of it counts, which white space after a
line end does not. -/
def jsxTextReach (counts atLine : Bool) : List Char → Nat × Bool
  | [] => (0, counts)
  | c :: rest =>
    if "\x00<>\x7b\x7d&".toList.contains c then (0, counts)
    else
      let atLine := if c = '\n' then true else atLine && isPlainSpace c
      let (n, counts) := jsxTextReach (counts || !atLine) atLine rest
      (n + 1, counts)

section

variable (t : Terminals)

def tokenAt (symbol : Nat) (c : Cursor) (n : Nat) : Token := ⟨symbol, c.pos, skip c n, false⟩

/-- The question mark of a conditional, which is none of the operators that start so. -/
def ternaryAt (c : Cursor) : Option Token :=
  let c := skipWhile isPlainSpace c
  match c.rest with
  | '?' :: '?' :: _ => none
  | '?' :: '.' :: rest =>
    if (rest.head?.map Char.isDigit).getD false then some (tokenAt t.ternary c 1) else none
  | '?' :: _ => some (tokenAt t.ternary c 1)
  | _ => none

/-- A comment in the manner of HTML, up to the end of its line. -/
def htmlCommentAt (c : Cursor) : Option Token :=
  let c := skipWhile (fun d => isPlainSpace d || d == '\u2028' || d == '\u2029') c
  if "<!--".toList.isPrefixOf c.rest || "-->".toList.isPrefixOf c.rest then
    some (tokenAt t.htmlComment c
      (c.rest.takeWhile fun d => d != '\x00' && !isSeparatorLine d).length)
  else none

/-- Tokens that depend on more than their own characters. -/
def contextToken (valid : TokenSet) (c : Cursor) : Option Token :=
  if valid.mem t.templateChars then
    if valid.mem t.semicolon then none
    else match templateReach c.rest with
      | some (n + 1) => some (tokenAt t.templateChars c (n + 1))
      | _ => none
  else
    let jsx := if valid.mem t.jsxText then jsxTextReach false false c.rest else (0, false)
    if jsx.2 then some (tokenAt t.jsxText c jsx.1)
    else if valid.mem t.semicolon then
      let answer := omitSemicolon (!valid.mem t.orOperator) (c.rest.length + 1) false c.rest
      if answer.allowed then some (tokenAt t.semicolon c 0)
      else if !answer.commented && valid.mem t.ternary && answer.rest.head? == some '?' then
        ternaryAt t ⟨c.pos + (c.rest.length - answer.rest.length), answer.rest⟩
      else none
    else if valid.mem t.ternary then ternaryAt t c
    else if !valid.mem t.orOperator && !valid.mem t.escape && !valid.mem t.regexPattern then
      htmlCommentAt t c
    else none

/-- A token that could come next. -/
structure Candidate where
  symbol : Nat
  length : Nat
  /-- Of two candidates the one of the higher priority wins, then the longer one. -/
  priority : Int
  /-- It wins over another of the same length. -/
  preferred : Nat
  isWord : Bool

/-- The better of two candidates, the first when there is nothing between them. -/
def better (a b : Candidate) : Candidate :=
  if a.priority ≠ b.priority then (if a.priority < b.priority then b else a)
  else if a.length ≠ b.length then (if a.length < b.length then b else a)
  else if a.preferred < b.preferred then b else a

def best : List Candidate → Option Candidate
  | [] => none
  | c :: rest => some (rest.foldl better c)

/-- A candidate, if its terminal is allowed and it has a length.  The length is looked for only
then. -/
@[macro_inline]
def candidate (valid : TokenSet) (symbol : Nat) (priority : Int) (preferred : Nat)
    (length : Option Nat) : Option Candidate :=
  if valid.mem symbol then
    length.bind fun n => if n = 0 then none else some ⟨symbol, n, priority, preferred, false⟩
  else none

/-- Tokens that start right here, with no white space before them. -/
def immediate (valid : TokenSet) (cs : List Char) : List Candidate :=
  let stringPart (quote : Char) : Option Nat :=
    positive (cs.takeWhile fun c => c != quote && c != '\\' && c != '\r' && c != '\n').length
  [ candidate valid t.doubleFragment 1 1 (stringPart '"'),
    candidate valid t.singleFragment 1 1 (stringPart '\''),
    candidate valid t.jsxDouble 1 1 (positive (jsxReach '"' cs)),
    candidate valid t.jsxSingle 1 1 (positive (jsxReach '\'' cs)),
    candidate valid t.escape 0 1 (escapeLength cs),
    candidate valid t.regexPattern (-1) 1 (regexLength cs),
    candidate valid t.regexEnd 1 3 (if cs.head? = some '/' then some 1 else none),
    candidate valid t.regexFlags 0 1
      (positive (cs.takeWhile fun c => 'a' ≤ c && c ≤ 'z').length) ].filterMap id

/-- A word: one of the language's own where it is allowed or reserved, else an identifier. -/
def wordCandidate (valid : TokenSet) (cs : List Char) : Option Candidate :=
  if valid &&& t.wordSet = 0 then none
  else (nameLength cs).map fun n =>
    let reserved (w : Nat) : Bool := t.table.reserved.mem w && !valid.mem t.table.anyWord
    match t.words[String.ofList (cs.take n)]? with
    | some w =>
      if valid.mem w || reserved w then ⟨w, n, 0, 0, true⟩ else ⟨t.table.word, n, 0, 0, false⟩
    | none => ⟨t.table.word, n, 0, 0, false⟩

def markCandidate (valid : TokenSet) (cs : List Char) : Option Candidate :=
  (t.marks.find? fun (mark, symbol) => valid.mem symbol && mark.isPrefixOf cs).map
    fun (mark, symbol) => ⟨symbol, mark.length, 0, 2, false⟩

/-- Tokens that may have white space before them. -/
def ordinary (valid : TokenSet) (cs : List Char) : List Candidate :=
  [ markCandidate t valid cs,
    wordCandidate t valid cs,
    candidate valid t.number 0 0 (numberLength cs),
    (commentLength cs).map fun n => ⟨t.comment, n, 0, 0, false⟩,
    candidate valid t.privateName 0 0 (match cs with
      | '#' :: rest => (nameLength rest).map (· + 1)
      | _ => none),
    candidate valid t.hashBang 0 0 (match cs with
      | '#' :: '!' :: rest => some ((rest.takeWhile (· != '\n')).length + 2)
      | _ => none),
    candidate valid t.jsxIdentifier 0 0 (hyphenatedLength cs),
    candidate valid t.reference 0 0 (referenceLength cs),
    candidate valid t.staticGet 0 0 (staticGetLength cs) ].filterMap id

def plainToken (valid : TokenSet) (c : Cursor) : Option Token :=
  let after := skipWhile isGap c
  let here := immediate t valid c.rest
  let take (c : Cursor) (k : Candidate) : Token :=
    { tokenAt k.symbol c k.length with isWord := k.isWord }
  if after.pos = c.pos then
    match best (here ++ ordinary t valid c.rest) with
    | some k => some (take c k)
    | none => if c.rest.isEmpty then some (tokenAt t.table.finish c 0) else none
  else match best here with
    | some k => some (take c k)
    | none =>
      if after.rest.isEmpty then some (tokenAt t.table.finish after 0)
      else (best (ordinary t valid after.rest)).map (take after)

/-- The next token where some terminals are allowed. -/
def nextToken (valid : TokenSet) (c : Cursor) : Option Token :=
  (contextToken t valid c).or (plainToken t valid c)

end

/-- The grammar, prepared for parsing. -/
def table : Table := Table.ofGrammar grammar

def terminals : Terminals := Terminals.ofTable table

/-- The terminals that are not recognized by their own characters alone. -/
def contextual : List String := [
  "automatic_semicolon", "template_chars", "ternary_qmark", "html_comment", "escape_sequence",
  "regex_pattern", "jsx_text"]

/-- The terminals that stand right after others only. -/
def inner : List String := [
  "double_fragment", "single_fragment", "jsx_double_fragment", "jsx_single_fragment", "regex_end",
  "regex_flags"]

/-- The terminals with their names, those left out whose names stand in a list. -/
def terminalsBut (names : List String) : List Nat :=
  (List.range table.terminals).filter fun t => !names.contains (table.names.getD t "")

def language : Language where
  table := table
  lex := nextToken terminals
  isGap := isGap
  anywhere := (terminalsBut (contextual ++ inner ++ [Table.anyWordName])).foldl
    (fun set t => set.union (TokenSet.single t)) TokenSet.empty
  insertable :=
    terminalsBut (contextual ++ [Table.finishName, Table.anyWordName])
      ++ contextual.map fun name => table.numbers.getD name 0

end CodeIndex.JavaScript
