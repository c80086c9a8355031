import CodeIndex.Syntax.Tree

/-! The stacks of a parser that follows several parses at once.  Parses that reach one state at one
place share their stack from there on, and part again when the symbols under it are taken off. -/

namespace CodeIndex.Parsing

open CodeIndex.Syntax

/-- How a subtree stands to the grammar. -/
inductive Role where
  /-- It follows the grammar, though there may be flaws below it. -/
  | sound
  /-- The parser lost its way here. -/
  | gap
  /-- Characters that are no token. -/
  | junk
  /-- Tokens that were skipped since the parser lost its way. -/
  | skipped
  /-- A flaw of the tree. -/
  | flaw
  deriving DecidableEq, Repr

/-- A parsed symbol: its span, its rank, and the nodes it leaves in the tree, the last one first. -/
structure Subtree where
  symbol : Nat
  start : Nat
  stop : Nat
  extra : Bool
  rank : Int
  trees : List Tree
  /-- It shows in the tree. -/
  visible : Bool
  /-- The symbols right below it that show in the tree. -/
  shown : Nat := 0
  /-- All symbols below it that show in the tree. -/
  count : Nat := 0
  /-- The cost of the flaws in it. -/
  cost : Nat := 0
  role : Role := .sound

namespace Subtree

/-- What it adds to the symbols that show below another. -/
def shownAs (s : Subtree) : Nat := if s.visible then 1 else s.shown

/-- What it adds to all the symbols that show. -/
def countAs (s : Subtree) : Nat := s.count + if s.visible then 1 else 0

/-- Two subtrees that a parser cannot tell apart from outside, or that are both flawed. -/
def alike (a b : Subtree) : Bool :=
  a.symbol == b.symbol && a.role == b.role
    && ((0 < a.cost && 0 < b.cost)
      || (a.start == b.start && a.stop == b.stop && a.extra == b.extra))

end Subtree

def totalRank (ss : List Subtree) : Int := ss.foldl (fun rank s => rank + s.rank) 0

mutual

/-- A state on top of the symbols that led to it; its identity tells it from others like it. -/
inductive Stack where
  | node (id state : Nat) (links : Links)

/-- The ways that led to a state. -/
inductive Links where
  | none
  | more (top : Subtree) (under : Stack) (others : Links)

end

namespace Stack

def id : Stack → Nat
  | node i _ _ => i

def state : Stack → Nat
  | node _ s _ => s

def links : Stack → Links
  | node _ _ ls => ls

end Stack

mutual

/-- The symbols on the first way to a state, the last one first. -/
def Stack.firstWay : Stack → List Subtree
  | .node _ _ links => links.firstWay

def Links.firstWay : Links → List Subtree
  | .none => []
  | .more top under _ => top :: under.firstWay

end

mutual

/-- Takes symbols off in every way there is, with the extras between them: the symbols in the order
of the text, onto `above`, and the stack that is left. -/
def Stack.pops : Nat → List Subtree → Stack → List (List Subtree × Stack)
  | 0, above, s => [(above, s)]
  | n + 1, above, .node _ _ links => links.pops (n + 1) above

def Links.pops : Nat → List Subtree → Links → List (List Subtree × Stack)
  | _, _, .none => []
  | n, above, .more top under others =>
    under.pops (if top.extra then n else n - 1) (top :: above) ++ others.pops n above

end

mutual

/-- Joins two stacks of one state, at most `depth` symbols down. -/
def Stack.join : Nat → Stack → Stack → Stack
  | 0, a, _ => a
  | depth + 1, a, b => if a.id = b.id then a else .node a.id a.state (a.links.joinAll depth b.links)

/-- Adds the second ways to the first ones. -/
def Links.joinAll : Nat → Links → Links → Links
  | _, ways, .none => ways
  | depth, ways, .more top under others => (ways.add depth top under).joinAll depth others

/-- Adds a way.  Of two ways over one stack the higher rank stays; stacks of one state under like
symbols are joined. -/
def Links.add : Nat → Links → Subtree → Stack → Links
  | _, .none, top, under => .more top under .none
  | depth, .more t u others, top, under =>
    if t.alike top && u.id == under.id then
      .more (if t.rank < top.rank then top else t) u others
    else if t.alike top && u.state == under.state then
      .more (if t.rank < top.rank then top else t) (Stack.join depth u under) others
    else .more t u (others.add depth top under)

end

end CodeIndex.Parsing
