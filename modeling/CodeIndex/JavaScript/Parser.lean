import CodeIndex.JavaScript.Lexer
import CodeIndex.Parsing.Recovery
import CodeIndex.Syntax.Cursor
import CodeIndex.Syntax.Position

/-! Parsing JavaScript into syntax trees. -/

namespace CodeIndex.JavaScript

open CodeIndex.Syntax

/-- Where the first flaw of a tree stands, or else where the tree begins. -/
def flawOffset (tree : Tree) : Nat :=
  ((Tree.Cursor.root tree).firstFlaw?.getD (.root tree)).label.start

/-- The place of the first flaw that a text has at the least. -/
def faultOffset (text : List Char) : Nat :=
  ((Parsing.flawedTree? language text).map flawOffset).getD 0

/-- The tree of a text, or the place of an error when the text is not in the language. -/
def parse (text : List Char) : Except Position Tree :=
  match (Parsing.parse language text).best.bind (·.trees.head?) with
  | some tree => .ok tree
  | none => .error (.of text (faultOffset text))

end CodeIndex.JavaScript
