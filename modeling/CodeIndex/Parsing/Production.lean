import CodeIndex.Parsing.Grammar

/-! The productions of a grammar: every way to go through a rule, with inlined rules replaced and
every repetition a left-recursive list. -/

namespace CodeIndex.Parsing

/-- One symbol of a production with the precedence that holds once the parser is past it. -/
structure Step where
  symbol : String
  precedence : Precedence
  assoc : Option Assoc
  unreserved : Bool
  deriving DecidableEq, Repr

/-- A way through a rule. -/
structure Path where
  steps : List Step
  rank : Int
  deriving DecidableEq, Repr

structure Production where
  rule : String
  path : Path
  deriving Repr

/-- What the rules around a place say of it. -/
structure Surrounding where
  precedence : Precedence := .none
  assoc : Option Assoc := none
  unreserved : Bool := false

/-- Of two ranks, the one that says more; the first when they say as much. -/
def strongerRank (a b : Int) : Int := if a.natAbs < b.natAbs then b else a

def Path.append (a b : Path) : Path := ⟨a.steps ++ b.steps, strongerRank a.rank b.rank⟩

/-- Changes the last step of a path. -/
def Path.mapLast (p : Path) (f : Step → Step) : Path :=
  match p.steps.reverse with
  | [] => p
  | last :: before => { p with steps := (f last :: before).reverse }

/-- Gives the precedence of the surroundings to the end of a path that does not end the rule. -/
def Path.leave (p : Path) (around : Surrounding) (precedence assoc : Bool) : Path :=
  p.mapLast fun s =>
    { s with
      precedence := if precedence then around.precedence else s.precedence
      assoc := if assoc then around.assoc else s.assoc }

/-- The alternatives of an inlined rule take the place of a step, whose precedence they have where
they have none. -/
def Path.within (p : Path) (around : Surrounding) : Path :=
  p.mapLast fun s =>
    { s with
      precedence := if s.precedence = .none then around.precedence else s.precedence
      assoc := s.assoc.or around.assoc
      unreserved := s.unreserved || around.unreserved }

/-- The paths through a rule.  `expand` gives those of an inlined rule; `atEnd` tells whether the
place ends the rule. -/
def Rule.paths (expand : String → Option (List Path)) (around : Surrounding) (atEnd : Bool) :
    Rule → List Path
  | .blank => [⟨[], 0⟩]
  | .sym name =>
    match expand name with
    | some ps => ps.map (·.within around)
    | none => [⟨[⟨name, around.precedence, around.assoc, around.unreserved⟩], 0⟩]
  | .seq rules => seqPaths expand around atEnd rules
  | .choice rules => choicePaths expand around atEnd rules
  | .many list _ =>
    [⟨[⟨list, around.precedence, around.assoc, around.unreserved⟩], 0⟩, ⟨[], 0⟩]
  | .prec precedence assoc body =>
    let inner := { around with precedence, assoc := assoc.or around.assoc }
    let ps := body.paths expand inner atEnd
    if atEnd then ps else ps.map (·.leave around true assoc.isSome)
  | .dynamic rank body =>
    (body.paths expand around atEnd).map fun p => { p with rank := strongerRank rank p.rank }
  | .unreserved body => body.paths expand { around with unreserved := true } atEnd
where
  seqPaths (expand : String → Option (List Path)) (around : Surrounding) (atEnd : Bool) :
      List Rule → List Path
    | [] => [⟨[], 0⟩]
    | [r] => r.paths expand around atEnd
    | r :: rest =>
      let tails := seqPaths expand around atEnd rest
      (r.paths expand around false).flatMap fun p => tails.map p.append
  choicePaths (expand : String → Option (List Path)) (around : Surrounding) (atEnd : Bool) :
      List Rule → List Path
    | [] => []
    | r :: rest => r.paths expand around atEnd ++ choicePaths expand around atEnd rest

/-- The bodies of the repetitions in a rule, by the name of their list. -/
def Rule.lists : Rule → List (String × Rule)
  | .blank => []
  | .sym _ => []
  | .seq rules => listsOf rules
  | .choice rules => listsOf rules
  | .many list body => (list, body) :: body.lists
  | .prec _ _ body => body.lists
  | .dynamic _ body => body.lists
  | .unreserved body => body.lists
where
  listsOf : List Rule → List (String × Rule)
    | [] => []
    | r :: rest => r.lists ++ listsOf rest

namespace Grammar

/-- Looks an inlined rule up, at most `depth` of them inside each other. -/
def expand (g : Grammar) : Nat → String → Option (List Path)
  | 0, _ => none
  | depth + 1, name =>
    if g.inlined.contains name then
      (g.rules.lookup name).map fun r => r.paths (g.expand depth) {} true
    else none

/-- Inlined rules nest at most this deep. -/
def inlineDepth : Nat := 8

def pathsOf (g : Grammar) (r : Rule) : List Path :=
  (r.paths (g.expand inlineDepth) {} true).eraseDups

def lists (g : Grammar) : List (String × Rule) :=
  (g.rules.flatMap fun (_, r) => r.lists).foldl
    (fun found l => if (found.lookup l.1).isSome then found else found ++ [l]) []

/-- All productions: those of the rules that are not inlined, and for each list one that starts it
and one that adds to it. -/
def productions (g : Grammar) : List Production :=
  let rules := g.rules.filter fun (name, _) => !g.inlined.contains name
  rules.flatMap (fun (name, r) => (g.pathsOf r).map (⟨name, ·⟩)) ++
    g.lists.flatMap fun (list, body) =>
      let link : Path := ⟨[⟨list, .none, none, false⟩], 0⟩
      (g.pathsOf body).flatMap fun p => [⟨list, p⟩, ⟨list, link.append p⟩]

end Grammar

end CodeIndex.Parsing
