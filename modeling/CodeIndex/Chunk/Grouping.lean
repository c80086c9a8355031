import CodeIndex.Chunk.Fragment
import CodeIndex.Syntax.Cursor
import CodeIndex.Text.Blank
import CodeIndex.Text.Lines

/-! Structural fragments.  Functions, classes, imports and exports start a group; variables and
statements join the group before them when they follow it closely. -/

namespace CodeIndex.Chunk

open CodeIndex.Syntax

/-- Whether a node starts a group or may join one, and the kind of its fragment. -/
structure Class where
  major : Bool
  kind : Kind
  deriving DecidableEq, Repr

def classify (kind : String) : Option Class :=
  if ["function_declaration", "generator_function_declaration", "function_expression", "function",
      "generator_function", "arrow_function", "method_definition"].contains kind then
    some ⟨true, .function⟩
  else if ["class_declaration", "class"].contains kind then some ⟨true, .class_⟩
  else if kind = "import_statement" then some ⟨true, .import_⟩
  else if kind = "export_statement" then some ⟨true, .export_⟩
  else if ["variable_declaration", "lexical_declaration"].contains kind then
    some ⟨false, .variable_⟩
  else if ["expression_statement", "if_statement", "for_statement", "for_in_statement",
      "while_statement", "do_statement", "switch_statement", "try_statement"].contains kind then
    some ⟨false, .expression⟩
  else none

/-- A classified node with its span of characters and of lines. -/
structure Match where
  start : Nat
  stop : Nat
  startLine : Nat
  endLine : Nat
  cls : Class
  kind : String
  deriving DecidableEq, Repr

/-- The classified node of a label, if it is named and has a class. -/
def Match.ofLabel (source : List Char) (l : Label) : Option Match :=
  if l.named then
    (classify l.kind).map fun cls =>
      ⟨l.start, l.stop, Text.lineAt source l.start, Text.lineAt source l.stop, cls, l.kind⟩
  else none

/-- The classified nodes of a tree, each before those below it. -/
def matches_ (source : List Char) (tree : Tree) : List Match :=
  ((Tree.Cursor.root tree).visit (fun found c =>
    match Match.ofLabel source c.label with
    | some m => m :: found
    | none => found) []).reverse

/-- Nodes are taken by their start, of two at one place the longer first. -/
def Match.before (a b : Match) : Bool :=
  a.start < b.start || (a.start == b.start && b.stop ≤ a.stop)

/-- A run of nodes that make one fragment. -/
structure Group where
  first : Match
  rest : List Match
  endLine : Nat
  deriving DecidableEq, Repr

namespace Group

def nodes (g : Group) : List Match := g.first :: g.rest

def single (m : Match) : Group := ⟨m, [], m.endLine⟩

def add (g : Group) (m : Match) : Group :=
  { g with rest := g.rest ++ [m], endLine := max g.endLine m.endLine }

/-- A node that starts no group of its own joins if at most two lines lie between. -/
def takes (g : Group) (m : Match) : Bool := !m.cls.major && m.startLine ≤ g.endLine + 2

def start (g : Group) : Nat := g.rest.foldl (fun s m => min s m.start) g.first.start

def stop (g : Group) : Nat := g.rest.foldl (fun s m => max s m.stop) g.first.stop

def startLine (g : Group) : Nat := g.rest.foldl (fun l m => min l m.startLine) g.first.startLine

/-- The node that names the fragment. -/
def anchor (g : Group) : Match := (g.nodes.find? (·.cls.kind.isAnchor)).getD g.first

end Group

/-- Fragments with less text than this are dropped. -/
def minSize : Nat := 50

def slice (source : List Char) (start stop : Nat) : List Char :=
  (source.drop start).take (stop - start)

/-- The fragment of a group, unless its text is too small. -/
def Group.fragment (source : List Char) (g : Group) : Option Fragment :=
  let content := slice source g.start g.stop
  if (Text.trim content).length < minSize then none
  else some ⟨0, content, g.startLine, g.endLine, g.anchor.cls.kind, g.anchor.kind⟩

/-- Divides nodes into groups, the first of which is under way. -/
def groupsFrom (current : Group) : List Match → List Group
  | [] => [current]
  | m :: rest =>
    if current.takes m then groupsFrom (current.add m) rest
    else current :: groupsFrom (.single m) rest

def groups : List Match → List Group
  | [] => []
  | m :: rest => groupsFrom (.single m) rest

/-- The fragments of nodes in any order. -/
def structural (source : List Char) (nodes : List Match) : List Fragment :=
  (groups (nodes.mergeSort Match.before)).filterMap (·.fragment source)

end CodeIndex.Chunk
