/-! Syntax trees over a text.  A node has a kind and a span of characters; flaws stand where the
text does not follow the grammar. -/

namespace CodeIndex.Syntax

/-- What a node says of the text: that it is in order, that something was skipped there, or that
something is missing there. -/
inductive Flaw where
  | sound
  | error
  | missing
  deriving DecidableEq, Repr

structure Label where
  kind : String
  named : Bool
  flaw : Flaw
  /-- There is a flaw at this node or below it. -/
  flawed : Bool
  start : Nat
  stop : Nat
  deriving DecidableEq, Repr

inductive Tree where
  | node (label : Label) (children : List Tree)
  deriving Repr

namespace Tree

def label : Tree → Label
  | node l _ => l

def children : Tree → List Tree
  | node _ cs => cs

/-- A sound node over its children. -/
def branch (kind : String) (start stop : Nat) (children : List Tree) : Tree :=
  node ⟨kind, true, .sound, children.any (·.label.flawed), start, stop⟩ children

mutual

/-- The labels of all nodes, each before those below it. -/
def preorder : Tree → List Label
  | node l cs => l :: preorderAll cs

def preorderAll : List Tree → List Label
  | [] => []
  | t :: ts => t.preorder ++ preorderAll ts

end

mutual

def size : Tree → Nat
  | node _ cs => sizeAll cs + 1

def sizeAll : List Tree → Nat
  | [] => 0
  | t :: ts => t.size + sizeAll ts

end

end Tree

end CodeIndex.Syntax
