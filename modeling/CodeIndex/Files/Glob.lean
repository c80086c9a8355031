import CodeIndex.Files.Pattern

/-! Globs: file name patterns.  A question mark stands for one byte and a star for any number of
them, slashes excepted; two stars between slashes stand for any number of directories; brackets hold
sets of bytes and braces alternatives; a backslash takes the character after it as it is. -/

namespace CodeIndex.Files

inductive GlobToken where
  | literal (c : Char)
  | any
  | anyNumber
  /-- Any number of directories in front. -/
  | directoriesBefore
  /-- Anything below a directory. -/
  | anythingBelow
  /-- Any number of directories between two slashes. -/
  | directoriesBetween
  | class_ (negated : Bool) (ranges : List (Char × Char))
  | alternatives (options : List (List GlobToken))
  deriving Repr, Inhabited

namespace Glob

def slash : Pattern := .literal 47

def notSlash : Pattern := .byte ⟨true, [(47, 47)]⟩

/-- The bytes that a range of characters admits.  A character outside ASCII admits each of its
bytes, and a range of such admits all from the last byte of the first to the first byte of the
second. -/
def classRanges (first last : Char) : List (UInt8 × UInt8) :=
  let a := (String.singleton first).toUTF8.toList
  let b := (String.singleton last).toUTF8.toList
  let single (x : UInt8) : UInt8 × UInt8 := (x, x)
  if first = last then a.map single
  else a.dropLast.map single ++ [(a.getLastD 0, b.headD 0)] ++ b.tail.map single

mutual

def tokenPattern : GlobToken → Pattern
  | .literal c => .character c
  | .any => notSlash
  | .anyNumber => .many notSlash
  | .directoriesBefore =>
    .either (.either slash .empty) (.seq (.many .anyByte) slash)
  | .anythingBelow => .seq slash (.many .anyByte)
  | .directoriesBetween =>
    .either slash (.seq slash (.seq (.many .anyByte) slash))
  | .class_ negated ranges => .byte ⟨negated, ranges.flatMap fun r => classRanges r.1 r.2⟩
  | .alternatives options => optionsPattern options

def tokensPattern : List GlobToken → Pattern
  | [] => .empty
  | t :: rest => (tokenPattern t).thenMatch (tokensPattern rest)

/-- Empty alternatives do not count, unless there are no others. -/
def optionsPattern : List (List GlobToken) → Pattern
  | [] => .empty
  | [] :: rest => optionsPattern rest
  | [ts] => tokensPattern ts
  | ts :: rest =>
    match optionsPattern rest with
    | .empty => tokensPattern ts
    | p => (tokensPattern ts).orMatch p

end

/-- The ranges of a class up to its closing bracket, which may stand first as itself; `pending` says
that a dash was read that may continue the last range. -/
def takeClass (ranges : List (Char × Char)) (first pending : Bool) :
    List Char → Option (List (Char × Char) × List Char)
  | [] => none
  | c :: rest =>
    if c = ']' ∧ !first then some (if pending then ranges ++ [('-', '-')] else ranges, rest)
    else if c = '-' ∧ !first ∧ !pending then takeClass ranges false true rest
    else if pending then
      match ranges.getLast? with
      | some (a, _) =>
        if c < a then none else takeClass (ranges.dropLast ++ [(a, c)]) false false rest
      | none => none
    else takeClass (ranges ++ [(c, c)]) false false rest

/-- A class after its opening bracket. -/
def takeClass? (cs : List Char) : Option (GlobToken × List Char) :=
  match cs with
  | '!' :: rest => (takeClass [] true false rest).map fun (rs, rest) => (.class_ true rs, rest)
  | '^' :: rest => (takeClass [] true false rest).map fun (rs, rest) => (.class_ true rs, rest)
  | cs => (takeClass [] true false cs).map fun (rs, rest) => (.class_ false rs, rest)

/-- The last bracket of a text is an opening one without its closing one. -/
def isUnclosed (cs : List Char) : Bool :=
  match cs with
  | '!' :: ']' :: rest => !rest.contains ']'
  | '^' :: ']' :: rest => !rest.contains ']'
  | ']' :: rest => !rest.contains ']'
  | cs => !cs.contains ']'

/-- A glob that is being read: the finished alternatives of each open brace, outermost last, and the
tokens of the alternative that is being read, in reverse. -/
structure Reading where
  /-- For each open brace, the tokens before it and its finished alternatives. -/
  open_ : List (List GlobToken × List (List GlobToken)) := []
  tokens : List GlobToken := []
  /-- Brackets no longer open classes, since one was never closed. -/
  plainBrackets : Bool := false

def Reading.push (r : Reading) (t : GlobToken) : Reading := { r with tokens := t :: r.tokens }

/-- A star and the stars after it. -/
def Reading.star (r : Reading) (previous : Option Char) (cs : List Char) : Reading × List Char :=
  match cs with
  | '*' :: rest =>
    let stars := (r.push .anyNumber).push .anyNumber
    if r.tokens.isEmpty then
      match rest with
      | [] => (r.push .directoriesBefore, [])
      | '/' :: rest => (r.push .directoriesBefore, rest)
      | rest => (stars, rest)
    else if previous != some '/' &&
        (r.open_.isEmpty || (previous != some ',' && previous != some '\x7b')) then (stars, rest)
    else
      let replace (t : GlobToken) : Reading :=
        match r.tokens with
        | .directoriesBefore :: _ => r
        | .anythingBelow :: _ => r
        | _ :: before => { r with tokens := t :: before }
        | [] => r
      match rest with
      | [] => (replace .anythingBelow, [])
      | '/' :: rest => (replace .directoriesBetween, rest)
      | c :: _ =>
        if !r.open_.isEmpty && (c == ',' || c == '\x7d') then (replace .anythingBelow, rest)
        else (stars, rest)
  | rest => (r.push .anyNumber, rest)

/-- Reads the tokens of a glob. -/
def read (r : Reading) (previous : Option Char) : Nat → List Char → Option (List GlobToken)
  | 0, _ => none
  | _, [] => if r.open_.isEmpty then some r.tokens.reverse else none
  | fuel + 1, c :: rest =>
    match c with
    | '?' => read (r.push .any) (some c) fuel rest
    | '*' =>
      let (r, after) := r.star previous rest
      let taken := rest.take (rest.length - after.length)
      read r (some (taken.getLastD '*')) fuel after
    | '[' =>
      if r.plainBrackets then read (r.push (.literal c)) (some c) fuel rest
      else match takeClass? rest with
        | some (t, rest) => read (r.push t) (some ']') fuel rest
        | none =>
          if isUnclosed rest then
            read { r.push (.literal c) with plainBrackets := true } (some c) fuel rest
          else none
    | '\x7b' =>
      read { r with open_ := (r.tokens, []) :: r.open_, tokens := [] } (some c) fuel rest
    | '\x7d' =>
      match r.open_ with
      | [] => none
      | (before, options) :: open_ =>
        let all := options ++ [r.tokens.reverse]
        read { r with open_ := open_, tokens := .alternatives all :: before } (some c) fuel rest
    | ',' =>
      match r.open_ with
      | [] => read (r.push (.literal c)) (some c) fuel rest
      | (before, options) :: open_ =>
        read { r with open_ := (before, options ++ [r.tokens.reverse]) :: open_, tokens := [] }
          (some c) fuel rest
    | '\\' =>
      match rest with
      | [] => none
      | c :: rest => read (r.push (.literal c)) (some c) fuel rest
    | c => read (r.push (.literal c)) (some c) fuel rest

/-- The pattern of a glob, if it is one. -/
def pattern? (glob : List Char) : Option Pattern :=
  (read {} none (glob.length + 1) glob).map tokensPattern

end Glob

end CodeIndex.Files
