import CodeIndex.Parsing.Run

/-! Parsing a text that leaves the grammar.  Where no parse can go on, the parser has lost its way.
It goes on as if a missing token stood there, or it skips tokens until one of the states that it
went through can take the next one, and puts what lies between into a flaw of the tree.  Such
attempts are followed side by side.  Flaws have a cost, attempts that cost much more than others
are given up, and of the trees that are finished the cheapest counts. -/

namespace CodeIndex.Parsing

open CodeIndex.Numeric (total)
open CodeIndex.Syntax

/-! ### Costs -/

/-- The cost of a flaw, besides what it holds. -/
def flawCost : Nat := 500

def missingCost : Nat := 110

/-- The cost of a symbol in a flaw. -/
def symbolCost : Nat := 100

/-- The cost of a line feed in a flaw, besides that of a byte. -/
def lineCost : Nat := 30

/-- An attempt is given up when it costs this much more than another, or less when the other got on
well since its last flaw. -/
def costMargin : Nat := 18 * symbolCost

def maxAttempts : Nat := 6

def lookBack : Nat := 16

/-- The numbers of bytes and of line feeds before each offset of a text. -/
structure Ruler where
  bytes : Array Nat
  lines : Array Nat

def Ruler.of (text : List Char) : Ruler :=
  let counts (f : Char → Nat) : Array Nat :=
    (text.foldl (fun (done, n) c => (done.push (n + f c), n + f c)) (#[0], 0)).1
  ⟨counts Char.utf8Size, counts fun c => if c = '\n' then 1 else 0⟩

/-- The cost of a stretch of text in a flaw. -/
def Ruler.cost (r : Ruler) (start stop : Nat) : Nat :=
  (r.bytes.getD stop 0 - r.bytes.getD start 0)
    + (r.lines.getD stop 0 - r.lines.getD start 0) * lineCost

namespace Subtree

/-- What a symbol adds to the cost of a flaw around it. -/
def costInFlaw (s : Subtree) : Nat :=
  match s.role with
  | .gap => 0
  | .skipped => symbolCost * s.shown
  | .junk => s.cost
  | _ => s.cost + if s.extra then 0 else symbolCost * s.shownAs

/-- What a symbol adds to the progress of a stack. -/
def progress (s : Subtree) : Nat := s.countAs + if s.role = .skipped then 1 else 0

end Subtree

namespace Stack

def cost (s : Stack) : Nat := total (·.cost) s.firstWay

def progress (s : Stack) : Nat := total (·.progress) s.firstWay

def rank (s : Stack) : Int := totalRank s.firstWay

/-- The symbol on top. -/
def top? (s : Stack) : Option Subtree :=
  match s.links with
  | .none => none
  | .more top _ _ => some top

def position (s : Stack) : Nat := (s.top?.map (·.stop)).getD 0

end Stack

/-- The symbols on top of a state, each with the stack under it. -/
def Links.toList : Links → List (Subtree × Stack)
  | .none => []
  | .more top under others => (top, under) :: others.toList

/-! ### Attempts -/

/-- The state of a parser that has lost its way. -/
def lostState : Nat := 0x100000000

/-- A state that the parser went through: how many symbols back, and where in the text. -/
structure Waypoint where
  depth : Nat
  state : Nat
  position : Nat

structure Attempt where
  stack : Stack
  cursor : Cursor
  /-- The progress when the way was lost last. -/
  mark : Nat := 0
  /-- The token that the attempt cannot take. -/
  paused : Option Token := none
  /-- The states before the way was lost. -/
  waypoints : List Waypoint := []
  ended : Bool := false

/-- How an attempt stands among others. -/
structure Standing where
  cost : Nat
  progress : Nat
  rank : Int
  astray : Bool

namespace Attempt

def isLost (a : Attempt) : Bool := a.stack.state == lostState

/-- The attempt can take another token. -/
def isActive (a : Attempt) : Bool := !a.ended && a.paused.isNone

def progress (a : Attempt) : Nat := a.stack.progress - a.mark

/-- The cost of all flaws, with that of a flaw that is about to begin. -/
def cost (a : Attempt) : Nat :=
  let opens := a.paused.isSome || (a.isLost && a.stack.top?.any (·.role == .gap))
  a.stack.cost + if opens then flawCost else 0

def standing (a : Attempt) : Standing where
  cost := a.cost + if a.paused.isSome then symbolCost else 0
  progress := a.progress
  rank := a.stack.rank
  astray := a.paused.isSome || a.isLost

/-- Two attempts that go on in the same way. -/
def joins (a b : Attempt) : Bool :=
  a.isActive && b.isActive && a.stack.state == b.stack.state && a.cursor.pos == b.cursor.pos
    && a.stack.cost == b.stack.cost

/-- Two attempts as one. -/
def join (a b : Attempt) : Attempt :=
  let stack := Stack.join joinDepth a.stack b.stack
  { a with stack, mark := if a.isLost then stack.progress else a.mark }

end Attempt

/-- What to do about two attempts. -/
inductive Choice where
  | takeFirst
  | preferFirst
  | either
  | preferSecond
  | takeSecond
  deriving DecidableEq

/-- The choice between a cheaper standing and another. -/
def Standing.outweighs (a b : Standing) : Bool := costMargin < (b.cost - a.cost) * (1 + a.progress)

def chooseBetween (a b : Standing) : Choice :=
  if !a.astray && b.astray then (if a.cost < b.cost then .takeFirst else .preferFirst)
  else if a.astray && !b.astray then (if b.cost < a.cost then .takeSecond else .preferSecond)
  else if a.cost < b.cost then (if a.outweighs b then .takeFirst else .preferFirst)
  else if b.cost < a.cost then (if b.outweighs a then .takeSecond else .preferSecond)
  else if b.rank < a.rank then .preferFirst
  else if a.rank < b.rank then .preferSecond
  else .either

structure Finished where
  cost : Nat
  rank : Int
  tree : Tree

/-- Of two finished trees the cheaper one; of equal ones the one of the higher rank, or else the
later one. -/
def Finished.select (old new : Finished) : Finished :=
  if old.cost < new.cost then old
  else if new.cost < old.cost then new
  else if new.rank < old.rank then old
  else new

/-- All attempts, how far the foremost one got, and the best finished tree. -/
structure Search where
  attempts : Array Attempt
  reached : Nat := 0
  finished : Option Finished := none
  finishes : Nat := 0

namespace Search

def finish (s : Search) (f : Finished) : Search :=
  { s with
    finished := some (match s.finished with
      | some old => old.select f
      | none => f)
    finishes := s.finishes + 1 }

def update (s : Search) (i : Nat) (f : Attempt → Attempt) : Search :=
  { s with attempts := s.attempts.modify i f }

def stop (s : Search) (i : Nat) : Search := s.update i fun a => { a with ended := true }

def add (s : Search) (as : List Attempt) : Search := { s with attempts := s.attempts ++ as.toArray }

/-- There is something better than attempt `i` at the given cost. -/
def hasBetter (s : Search) (i : Nat) (a : Attempt) (cost : Nat) : Bool :=
  let standing : Standing := ⟨cost, a.progress, a.stack.rank, false⟩
  s.finished.any (·.cost ≤ cost) || s.attempts.zipIdx.any fun (b, j) =>
    j != i && b.isActive && a.cursor.pos ≤ b.cursor.pos &&
      match chooseBetween standing b.standing with
      | .takeSecond => true
      | .preferSecond => b.joins a
      | _ => false

end Search

/-! ### Flaws -/

section

variable (lang : Language) (ruler : Ruler)

/-- The numbers of the symbols that are no part of the grammar. -/
def junkSymbol : Nat := lang.table.names.size

def flawSymbol : Nat := lang.table.names.size + 1

/-- The place where the way is lost. -/
def gapAt (position : Nat) : Subtree :=
  { symbol := flawSymbol lang, start := position, stop := position, extra := false, rank := 0,
    trees := [], visible := false, role := .gap }

def missingAt (symbol position : Nat) : Subtree :=
  let label : Label :=
    ⟨lang.table.names.getD symbol "", false, .missing, true, position, position⟩
  { symbol, start := position, stop := position, extra := false, rank := 0
    trees := [.node label []], visible := !lang.table.hidden.getD symbol false
    cost := missingCost + flawCost }

/-- The kind of the nodes that hold what does not follow the grammar. -/
def flawKind : String := "ERROR"

/-- A flaw over what was in an older flaw and some symbols after it. -/
def flawOver (older : Option Subtree) (parts : List Subtree) (extra : Bool) : Subtree :=
  let all := older.toList ++ parts
  let start := (all.head?.map (·.start)).getD 0
  let stop := (all.getLast?.map (·.stop)).getD 0
  let before := (older.map fun e => e.cost - flawCost - ruler.cost e.start e.stop).getD 0
  let children := (older.map fun e => e.trees.flatMap Tree.children).getD []
    ++ parts.flatMap fun p => p.trees.reverse
  { symbol := flawSymbol lang, start, stop, extra
    rank := totalRank all
    trees := [.node ⟨flawKind, true, .error, true, start, stop⟩ children]
    visible := true
    shown := (older.map (·.shown)).getD 0 + total (·.shownAs) parts
    count := (older.map (·.count)).getD 0 + total (·.countAs) parts
    cost := flawCost + ruler.cost start stop + before + total (·.costInFlaw) parts
    role := .flaw }

/-- The tokens skipped so far, and one more. -/
def skipOver (older : Option Subtree) (token : Subtree) : Subtree :=
  let start := (older.map (·.start)).getD token.start
  let shown := (older.map (·.shown)).getD 0 + token.shownAs
  let inside := if older.isSome then symbolCost * shown else token.costInFlaw
  { symbol := flawSymbol lang, start, stop := token.stop, extra := false, rank := 0
    trees := [], visible := false, shown
    count := (older.map (·.count)).getD 0 + token.countAs
    cost := flawCost + ruler.cost start token.stop + inside
    role := .skipped }

/-- Keeps a symbol apart from the gaps. -/
def isKept (s : Subtree) : Bool := s.role != .gap

/-! ### Tokens -/

/-- Goes past characters that start no token. -/
def skipJunk : Nat → Cursor → Cursor
  | 0, c => c
  | fuel + 1, c =>
    match lang.lex lang.anywhere c with
    | some _ => c
    | none =>
      let rest := c.rest.dropWhile lang.isGap
      skipJunk fuel ⟨c.pos + (c.rest.length - rest.length) + 1, rest.drop 1⟩

/-- The next token where anything may stand. -/
def nextAnywhere (c : Cursor) : Token :=
  match lang.lex lang.anywhere c with
  | some token => token
  | none =>
    let rest := c.rest.dropWhile lang.isGap
    let start := c.pos + (c.rest.length - rest.length)
    ⟨junkSymbol lang, start, skipJunk lang c.rest.length ⟨start + 1, rest.drop 1⟩, false⟩

/-- The next token of an attempt: one that its state can take, or else any. -/
def nextFor (a : Attempt) : ParseM Token := do
  if a.isLost then return nextAnywhere lang a.cursor
  let valid ← withAutomaton (Automaton.validAt a.stack.state)
  return (lang.lex valid a.cursor).getD (nextAnywhere lang a.cursor)

/-- The symbol of a token, which may be none of the grammar. -/
def tokenLeaf (token : Token) : Subtree :=
  let extra := lang.table.extras.mem token.symbol
  let l := leaf lang token extra
  if token.symbol = junkSymbol lang then { l with visible := true, role := .junk } else l

def takes (state symbol : Nat) : ParseM Bool := do
  if symbol = junkSymbol lang then return false
  if lang.table.extras.mem symbol then return true
  let actions ← withAutomaton (Automaton.actionsAt lang.table state symbol)
  return actions.shifts || !actions.reductions.isEmpty

/-! ### Losing the way -/

/-- The productions that may end at a state before a terminal, or before some one, and whether it
can be shifted. -/
def openActions (state : Nat) (before : Option Nat) : ParseM (List NumberedProduction × Bool) := do
  let symbols := match before with
    | some symbol => [symbol]
    | none => lang.table.terminals.fold (fun t _ found => t :: found) []
      |>.filter fun t => t != lang.table.finish && t != lang.table.anyWord
  let mut found : List Nat := []
  let mut shifts := false
  for symbol in symbols.reverse do
    let actions ← withAutomaton (Automaton.actionsAt lang.table state symbol)
    found := actions.reductions.foldl (fun f r => if f.contains r then f else f ++ [r]) found
    shifts := shifts || actions.shifts
  let productions := found.filterMap fun i => lang.table.productions[i]?
  return (productions.filter (·.rule != lang.table.whole), shifts)

/-- The stacks after a production ends. -/
def reduceBy (p : NumberedProduction) (stack : Stack) : ParseM (List Stack) := do
  let ways := (stack.pops p.steps.size []).map fun (tops, under) =>
    let (parts, extras) := splitExtras tops
    (reduceParts lang p parts, extras, under)
  let mut heads : List Stack := []
  for (top, extras, under) in bestWays ways do
    match ← withAutomaton (Automaton.move lang.table under.state p.rule) with
    | none => pure ()
    | some next => do
      let s ← push top next under
      heads := heads ++ [← pushExtras s extras]
  return heads

/-- Lets productions end in every way there is.  A stack that cannot shift gives way to the last one
that comes from it; all are before the same terminal, or before some one.  Tells whether one of them
can shift. -/
def endProductions (before : Option Nat) :
    Nat → Nat → List Stack → List Stack → Bool → ParseM (List Stack × Bool)
  | 0, _, done, todo, shifts => pure (done ++ todo, shifts)
  | _, _, done, [], shifts => pure (done, shifts)
  | fuel + 1, round, done, s :: rest, shifts => do
    let (productions, canShift) ← openActions lang s.state before
    let mut results : List Stack := []
    for p in productions do
      results := results ++ (← reduceBy lang p s)
    if canShift then
      endProductions before fuel (round + 1) (done ++ [s]) (rest ++ results) true
    else match results.getLast?, decide (round < maxAttempts) with
      | some last, true =>
        endProductions before fuel (round + 1) done (last :: rest ++ results.dropLast) shifts
      | _, _ =>
        let done := if before.isSome then done else done ++ [s]
        endProductions before fuel (round + 1) done (rest ++ results) shifts

/-- The terminal that productions are ended before; before the end of the text, any. -/
def endBefore (token : Token) : Option Nat :=
  if token.symbol = lang.table.finish then none else some token.symbol

/-- The stacks with the first terminal missing that lets them take a token. -/
def withMissing (token : Token) (position : Nat) (s : Stack) : List Nat → ParseM (List Stack)
  | [] => pure []
  | symbol :: rest => do
    let actions ← withAutomaton (Automaton.actionsAt lang.table s.state symbol)
    let next ← if actions.shifts then
        withAutomaton (Automaton.move lang.table s.state symbol)
      else pure none
    match next with
    | none => withMissing token position s rest
    | some next => do
      let after ← withAutomaton (Automaton.actionsAt lang.table next token.symbol)
      if next = s.state || after.reductions.isEmpty then withMissing token position s rest
      else do
        let inserted ← push (missingAt lang symbol position) next s
        let (heads, shifts) ← endProductions lang (endBefore lang token) 64 0 [] [inserted] false
        if shifts then pure heads else withMissing token position s rest

/-- The first of several stacks that can go on with a terminal missing. -/
def firstMissing (token : Token) (position : Nat) : List Stack → ParseM (List Stack)
  | [] => pure []
  | s :: rest => do
    if token.symbol = junkSymbol lang then return []
    match ← withMissing lang token position s lang.insertable with
    | [] => firstMissing token position rest
    | heads => pure heads

/-- The states that a stack went through, the nearest first. -/
def waypoints : Nat → List (Stack × Nat) → List Waypoint → List Waypoint
  | 0, _, found => found
  | _, [], found => found
  | fuel + 1, front, found =>
    let front := front.filter (·.2 ≤ lookBack)
    let found := front.foldl (fun found (s, depth) =>
      if found.any fun w => w.depth == depth && w.state == s.state then found
      else found ++ [⟨depth, s.state, s.position⟩]) found
    let next := front.flatMap fun (s, depth) =>
      s.links.toList.map fun (top, under) => (under, if top.extra then depth else depth + 1)
    waypoints fuel (next.take 64) found

/-! ### Finding back -/

/-- The flaw on top of a stack with the stack under it. -/
def topFlaw? (s : Stack) : Option (Subtree × Stack) :=
  s.links.toList.find? fun (top, _) => top.role == .flaw

/-- Goes back to a state: the symbols on top of it become a flaw, together with a flaw before them.
The extras at their end stay outside. -/
def returnTo (a : Attempt) (depth goal : Nat) : ParseM (List Attempt) := do
  let ways := (a.stack.pops depth []).filter fun (_, under) => under.state == goal
  let ways := ways.foldl (fun kept way =>
    if kept.any fun k => k.2.id == way.2.id then kept else kept ++ [way]) []
  let mut found : List Attempt := []
  for (tops, under) in ways do
    let (parts, extras) := splitExtras (tops.filter isKept)
    let (older, base) := match topFlaw? under with
      | some (flaw, below) => (some flaw, below)
      | none => (none, under)
    let s ← if parts.isEmpty && older.isNone then pure base
      else push (flawOver lang ruler older parts true) goal base
    let s ← pushExtras s extras
    found := found ++ [{ stack := s, cursor := a.cursor, mark := a.mark }]
  return found

/-- Goes back to the nearest state that can take a token, unless that costs too much. -/
def findBack (s : Search) (i : Nat) (a : Attempt) (token : Token) :
    List Waypoint → ParseM (List Attempt)
  | [] => pure []
  | w :: rest => do
    let position := a.cursor.pos
    let blocked := s.attempts.any fun b =>
      !b.ended && b.stack.state == w.state && b.cursor.pos == position
    if w.state = lostState || w.position = position || blocked then findBack s i a token rest
    else if s.hasBetter i a (a.cost + w.depth * symbolCost + ruler.cost w.position position) then
      pure []
    else if ← takes lang w.state token.symbol then
      let depth := if 0 < a.progress then w.depth + 1 else w.depth
      match ← returnTo lang ruler a depth w.state with
      | [] => findBack s i a token rest
      | found => pure found
    else findBack s i a token rest

/-- Ends an attempt that is still lost at the end of the text: all of it is a flaw. -/
def finishLost (s : Search) (i : Nat) (a : Attempt) (token : Token) : Search :=
  let parts := a.stack.firstWay.reverse.filter isKept
  let last := { tokenLeaf lang token with extra := true, visible := false }
  let root := flawOver lang ruler none (parts ++ [last]) false
  let tree := root.trees.headD (.branch flawKind 0 0 [])
  (s.finish ⟨root.cost, root.rank, tree⟩).stop i

/-- What a lost attempt does about a token: it goes back to a state that can take it, and it also
skips it. -/
def recover (s : Search) (i : Nat) (a : Attempt) (token : Token) : ParseM Search := do
  let junk := token.symbol = junkSymbol lang
  let found ← if junk then pure [] else findBack lang ruler s i a token a.waypoints
  let s := s.add found
  if token.symbol = lang.table.finish then return finishLost lang ruler s i a token
  let crowded := !found.isEmpty && maxAttempts < s.attempts.size
  let cost := a.cost + symbolCost + ruler.cost a.cursor.pos token.after.pos
  if crowded || s.hasBetter i a cost then return s.stop i
  let (older, base) := match a.stack.links.toList with
    | [(top, under)] => if top.role == .skipped then (some top, under) else (none, a.stack)
    | _ => (none, a.stack)
  let stack ← push (skipOver lang ruler older (tokenLeaf lang token)) lostState base
  return s.update i fun a => { a with stack, cursor := token.after }

/-- What is done about an attempt that cannot take its token. -/
def loseWay (s : Search) (i : Nat) (a : Attempt) (token : Token) : ParseM Search := do
  let position := a.cursor.pos
  let (heads, _) ← endProductions lang none 64 0 [] [a.stack] false
  let repaired ← firstMissing lang token position heads
  let links := heads.foldl (fun links s => links.add joinDepth (gapAt lang position) s) Links.none
  let lost ← fun p => (Stack.node p.nextId lostState links, { p with nextId := p.nextId + 1 })
  let a := { a with
    stack := lost, paused := none, mark := lost.progress
    waypoints := waypoints 64 [(lost, 0)] [] }
  let others := repaired.map fun s => { stack := s, cursor := a.cursor, mark := a.mark : Attempt }
  let s := (s.update i fun _ => a).add others
  recover lang ruler s i a token

/-! ### The search -/

/-- The tree of a complete parse, with what lies before and after it. -/
def Accepted.finished (p : Accepted) : Finished :=
  let before := p.before.firstWay.reverse
  let all := before ++ p.top :: p.after
  let trees (ss : List Subtree) : List Tree := ss.flatMap fun s => s.trees.reverse
  let root := match p.top.trees with
    | .node l cs :: _ => Tree.branch l.kind l.start l.stop (trees before ++ cs ++ trees p.after)
    | [] => Tree.branch "" 0 0 (trees all)
  ⟨total (·.cost) all, totalRank all, root⟩

def advance (s : Search) (i : Nat) (a : Attempt) : ParseM Search := do
  let token ← nextFor lang a
  if a.isLost then recover lang ruler s i a token
  else do
    let outcome ← takeToken lang (40 * a.cursor.pos + 1000) token a.stack
    let going := outcome.heads.map fun h => { a with stack := h.stack, cursor := h.cursor }
    let stuck := outcome.stuck.map fun (stack, _) => { a with stack, paused := some token }
    let s := outcome.accepted.foldl (fun s p => s.finish p.finished) s
    match going ++ stuck with
    | [] => return s.stop i
    | first :: others => return (s.update i fun _ => first).add others

/-- Lets an attempt take tokens until it is ahead of all that came before it. -/
def advanceFar : Nat → Search → Nat → ParseM Search
  | 0, s, _ => pure s
  | fuel + 1, s, i => do
    match s.attempts[i]? with
    | none => return s
    | some a =>
      if !a.isActive then return s
      let s ← advance lang ruler s i a
      let position := (s.attempts[i]?.map (·.cursor.pos)).getD 0
      if s.reached < position || (0 < i && position = s.reached) then
        return { s with reached := position }
      else advanceFar fuel s i

/-- Lets all attempts get on, those that come up on the way included. -/
def advanceAll : Nat → Search → Nat → ParseM Search
  | 0, s, _ => pure s
  | fuel + 1, s, i => do
    if s.attempts.size ≤ i then return s
    let s ← advanceFar lang ruler 1000 s i
    advanceAll fuel s (i + 1)

/-- Puts an attempt among better ones and worse ones.  It may take the place of another, be joined
to it, or be given up. -/
def placeAmong (a : Attempt) (standing : Standing) : List Attempt → List Attempt
  | [] => [a]
  | b :: rest =>
    match chooseBetween b.standing standing with
    | .takeFirst => b :: rest
    | .takeSecond => placeAmong a standing rest
    | .preferSecond =>
      if b.joins a then b.join a :: rest else a :: placeAmong b standing rest
    | _ => if b.joins a then b.join a :: rest else b :: placeAmong a standing rest

/-- The attempts from the most to the least promising. -/
def sortAttempts (as : List Attempt) : List Attempt :=
  ((as.filter (!·.ended)).foldl (fun kept a => placeAmong a a.standing kept) []).take maxAttempts

/-- Lets the first attempt begin with a flaw if it is stuck, and gives up those that are stuck
behind another.  `n` counts the attempts that are left to look at. -/
def resume : Nat → Search → Nat → Bool → ParseM Search
  | 0, s, _, _ => pure s
  | n + 1, s, i, going => do
    match s.attempts[i]? with
    | none => return s
    | some a =>
      match a.paused with
      | none => resume n s (i + 1) true
      | some token =>
        if !going && s.finishes < maxAttempts then
          resume n (← loseWay lang ruler s i a token) (i + 1) true
        else resume n { s with attempts := s.attempts.eraseIdxIfInBounds i } i going

/-- The least cost of the attempts that are on their way. -/
def leastCost (as : List Attempt) : Option Nat :=
  match as.filter (!·.standing.astray) with
  | [] => (as.find? (·.paused.isSome)).map (·.cost)
  | going => (going.map (·.standing.cost)).min?

/-- Follows the attempts until none is left, or none can be as good as a finished tree. -/
def searchFrom : Nat → Search → ParseM Search
  | 0, s => pure s
  | fuel + 1, s => do
    let s ← advanceAll lang ruler 1000 s 0
    let attempts := sortAttempts s.attempts.toList
    let least := leastCost attempts
    let s ← resume lang ruler attempts.length { s with attempts := attempts.toArray } 0 false
    let settled := match s.finished, least with
      | some f, some cost => f.cost < cost
      | some _, none => s.attempts.all (!·.standing.astray)
      | none, _ => false
    if s.attempts.isEmpty || settled then return s
    searchFrom fuel s

/-- The cheapest tree of a text, flaws and all. -/
def flawedTree? (text : List Char) : Option Tree :=
  let start : Search := { attempts := #[{ stack := .node 0 0 .none, cursor := ⟨0, text⟩ }] }
  let (s, _) := searchFrom lang (Ruler.of text) (4 * text.length + 64) start ⟨lang.automaton, 1⟩
  s.finished.map (·.tree)

end

end CodeIndex.Parsing
