/-! Context-free grammars with precedences.  A grammar names its rules; every other symbol in a rule
is a terminal.  Precedences and associativities settle which of two parses of an operator expression
counts; dynamic precedences rank whole parses that remain. -/

namespace CodeIndex.Parsing

inductive Assoc where
  | left
  | right
  deriving DecidableEq, Repr

/-- How tightly a rule binds: not said, said without a name, or by a name that the grammar ranks. -/
inductive Precedence where
  | none
  | plain
  | named (name : String)
  deriving DecidableEq, Repr

inductive Rule where
  | blank
  | sym (name : String)
  | seq (rules : List Rule)
  | choice (rules : List Rule)
  /-- The body any number of times; the list of bodies is the rule `list`. -/
  | many (list : String) (body : Rule)
  | prec (precedence : Precedence) (assoc : Option Assoc) (body : Rule)
  | dynamic (rank : Int) (body : Rule)
  /-- In here no word is reserved. -/
  | unreserved (body : Rule)
  deriving Repr

/-- An entry in a ranking: a named precedence, or a rule by its name. -/
inductive Ranked where
  | precedence (name : String)
  | rule (name : String)
  deriving DecidableEq, Repr

structure Grammar where
  start : String
  rules : List (String × Rule)
  /-- Rules that are replaced by their alternatives wherever they are used. -/
  inlined : List String
  /-- Rules that leave no node of their own in the tree. -/
  hidden : List String
  /-- The kinds of the nodes of rules, where they are not the names. -/
  kinds : List (String × String)
  /-- Rankings of precedences and rules, the tightest first. -/
  rankings : List (List Ranked)
  /-- Terminals that may stand between any two others. -/
  extras : List String
  /-- The terminal of identifiers. -/
  word : String
  /-- Words that are never identifiers, except where no word is reserved. -/
  reserved : List String

namespace Rule

def optional (r : Rule) : Rule := .choice [r, .blank]

/-- One or more, separated by commas. -/
def commaSep1 (list : String) (r : Rule) : Rule := .seq [r, .many list (.seq [.sym ",", r])]

/-- Any number, separated by commas. -/
def commaSep (list : String) (r : Rule) : Rule := optional (commaSep1 list r)

def oneOf (names : List String) : Rule := .choice (names.map .sym)

end Rule

end CodeIndex.Parsing
