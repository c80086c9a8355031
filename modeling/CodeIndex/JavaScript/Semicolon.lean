/-! Places where a semicolon may be left out: before a closing brace, at the end of the text, and at
the end of a line whose next line could not go on with the statement. -/

namespace CodeIndex.JavaScript

def isPlainSpace (c : Char) : Bool :=
  c == ' ' || ('\t' ≤ c && c ≤ '\r')

def isSeparatorLine (c : Char) : Bool := c == '\n' || c == '\u2028' || c == '\u2029'

/-- The text has ended, or goes on with a character that cannot be read. -/
def atEnd : List Char → Bool
  | [] => true
  | c :: _ => c == '\x00'

/-- What comments say of a semicolon before them. -/
inductive CommentVerdict where
  | refused
  | open_
  | allowed
  deriving DecidableEq

/-- The text after white space and comments, with their verdict. -/
structure AfterComments where
  verdict : CommentVerdict
  commented : Bool
  rest : List Char

/-- The rest of a block comment: whether it goes over a line, and the text after it, or the end of
the text when it is not closed. -/
def skipBlock (crossed : Bool) : List Char → Bool × Bool × List Char
  | [] => (crossed, false, [])
  | '*' :: '/' :: rest => (crossed, true, rest)
  | c :: rest =>
    if c = '\x00' then (crossed, false, c :: rest)
    else skipBlock (crossed || isSeparatorLine c) rest

/-- Goes past white space and comments; without `all`, only past a first block comment. -/
def skipComments (all : Bool) : Nat → Bool → Bool → List Char → AfterComments
  | 0, _, commented, cs => ⟨.allowed, commented, cs⟩
  | fuel + 1, crossed, commented, cs =>
    match cs.dropWhile isPlainSpace with
    | '/' :: '/' :: rest =>
      skipComments all fuel crossed true
        (rest.dropWhile fun c => c != '\x00' && !isSeparatorLine c)
    | '/' :: '*' :: rest =>
      let (crossed, closed, rest) := skipBlock crossed rest
      if closed then
        if !all && rest.head? != some '/' then
          ⟨if crossed then .allowed else .open_, true, rest⟩
        else skipComments all fuel crossed true rest
      else skipComments all fuel crossed commented rest
    | '/' :: rest => ⟨.refused, commented, rest⟩
    | rest => ⟨.allowed, commented, rest⟩

/-- The answer to whether a semicolon may be left out, and where reading for it stopped. -/
structure SemicolonAnswer where
  allowed : Bool
  commented : Bool
  rest : List Char

/-- A line that starts so does not go on with the statement before it. -/
def startsStatement (commented : Bool) (cs : List Char) : SemicolonAnswer :=
  let answer (allowed : Bool) (rest : List Char) : SemicolonAnswer := ⟨allowed, commented, rest⟩
  match cs with
  | [] => answer true []
  | c :: rest =>
    if "`,:;*%><=[(?^|&/".toList.contains c then answer false cs
    else if c = '.' then answer ((rest.head?.map Char.isDigit).getD false) rest
    else if c = '+' then answer (rest.head? == some '+') rest
    else if c = '-' then answer (rest.head? == some '-') rest
    else if c = '!' then answer (rest.head? != some '=') rest
    else if c = 'i' then
      match rest with
      | 'n' :: more =>
        let isLetter := (more.head?.map Char.isAlpha).getD false
        if !isLetter then answer false more
        else if "stanceof".toList.isPrefixOf more then
          let after := more.drop 8
          answer ((after.head?.map Char.isAlpha).getD false) after
        else answer true more
      | _ => answer true rest
    else answer true cs

/-- Decides on a semicolon at the start of the text.  `afterComment` lets it stand before a comment
that ends the line. -/
def omitSemicolon (afterComment : Bool) : Nat → Bool → List Char → SemicolonAnswer
  | 0, commented, cs => ⟨false, commented, cs⟩
  | fuel + 1, commented, cs =>
    if atEnd cs then ⟨true, commented, cs⟩
    else
      let comments : AfterComments :=
        match cs with
        | '/' :: _ => skipComments false cs.length false commented cs
        | _ => ⟨.open_, commented, cs⟩
      let (commented, next) := (comments.commented, comments.rest)
      if comments.verdict = .refused then ⟨false, commented, next⟩
      else if comments.verdict = .allowed && afterComment
          && next.head? != some ',' && next.head? != some '=' then ⟨true, commented, next⟩
      else match next with
        | [] => ⟨false, commented, next⟩
        | c :: rest =>
          if c = '\x7d' then ⟨true, commented, next⟩
          else if isSeparatorLine c then
            let after := skipComments true rest.length false commented rest
            if after.verdict = .refused then ⟨false, after.commented, after.rest⟩
            else startsStatement after.commented after.rest
          else if isPlainSpace c then omitSemicolon afterComment fuel commented rest
          else ⟨false, commented, next⟩

end CodeIndex.JavaScript
