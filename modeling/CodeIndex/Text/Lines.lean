/-! Lines of a text.  A line feed ends a line; nothing else does. -/

namespace CodeIndex.Text

/-- The parts of a text between its line feeds; an empty text has one, empty part. -/
def splitLines : List Char → List (List Char)
  | [] => [[]]
  | c :: rest =>
    if c = '\n' then [] :: splitLines rest
    else match splitLines rest with
      | [] => [[c]]
      | line :: more => (c :: line) :: more

def joinLines (lines : List (List Char)) : List Char := ['\n'].intercalate lines

def newlines (cs : List Char) : Nat := cs.count '\n'

/-- The number of lines, where a line feed at the end opens no new one. -/
def lineCount (cs : List Char) : Nat :=
  match cs.getLast? with
  | none => 0
  | some c => if c = '\n' then newlines cs else newlines cs + 1

/-- The number of the line of an offset, from 1. -/
def lineAt (cs : List Char) (offset : Nat) : Nat := newlines (cs.take offset) + 1

end CodeIndex.Text
