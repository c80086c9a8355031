import CodeIndex.Numeric.Power
import CodeIndex.Parsing.Automaton
import CodeIndex.Parsing.Stack

/-! Parsing a text.  All parses that the automaton leaves open are followed side by side; each asks
for its next token by the terminals that it can take, and those that cannot go on are given up. -/

namespace CodeIndex.Parsing

open CodeIndex.Numeric (total)
open CodeIndex.Syntax

/-- A place in a text with the characters from there on. -/
structure Cursor where
  pos : Nat
  rest : List Char

/-- A token: its terminal, where it starts, and the place after it. -/
structure Token where
  symbol : Nat
  start : Nat
  after : Cursor
  /-- It is a word, which may count as an identifier instead. -/
  isWord : Bool

/-- A language: its table, and the token that comes next for a set of terminals. -/
structure Language where
  table : Table
  lex : TokenSet → Cursor → Option Token
  /-- White space between tokens. -/
  isGap : Char → Bool
  /-- The terminals that are looked for when the parser has lost its way. -/
  anywhere : TokenSet
  /-- The terminals that may be missing, in the order in which they are tried. -/
  insertable : List Nat

/-- A parse under way. -/
structure Head where
  stack : Stack
  cursor : Cursor

/-- A complete parse: what lies before it on the stack, its symbol, and what comes after. -/
structure Accepted where
  before : Stack
  top : Subtree
  after : List Subtree := []

/-- What came of the parses of one token. -/
structure Outcome where
  /-- Those that took the token. -/
  heads : List Head := []
  /-- Those that were complete. -/
  accepted : List Accepted := []
  /-- Those that could not go on. -/
  stuck : List (Stack × Option Token) := []

namespace Outcome

def append (a b : Outcome) : Outcome :=
  ⟨a.heads ++ b.heads, a.accepted ++ b.accepted, a.stuck ++ b.stuck⟩

end Outcome

/-- Parsing grows the automaton and numbers the stacks. -/
structure Progress where
  automaton : Automaton
  nextId : Nat

abbrev ParseM := StateM Progress

def withAutomaton {α : Type} (m : Automaton.M α) : ParseM α := fun p =>
  let (a, automaton) := m p.automaton
  (a, { p with automaton })

def push (top : Subtree) (state : Nat) (under : Stack) : ParseM Stack := fun p =>
  (.node p.nextId state (.more top under .none), { p with nextId := p.nextId + 1 })

/-- How many symbols deep stacks of one state are joined. -/
def joinDepth : Nat := 64

/-- Drops the extras at the end of a list of symbols. -/
def splitExtras (tops : List Subtree) : List Subtree × List Subtree :=
  let extras := (tops.reverse.takeWhile (·.extra)).reverse
  ((tops.reverse.dropWhile (·.extra)).reverse, extras)

/-- The trees of several symbols, the last one first.  Those of the first symbol, which may be many,
are shared. -/
def joinTrees : List Subtree → List Tree
  | [] => []
  | first :: rest => rest.foldl (fun trees part => part.trees ++ trees) first.trees

section

variable (lang : Language)

/-- The symbol of a production over its parts. -/
def reduceParts (p : NumberedProduction) (parts : List Subtree) : Subtree :=
  let start := (parts.head?.map (·.start)).getD 0
  let stop := (parts.getLast?.map (·.stop)).getD 0
  let trees := joinTrees parts
  let hidden := lang.table.hidden.getD p.rule false
  { symbol := p.rule, start, stop, extra := false
    rank := p.rank + totalRank parts
    trees :=
      if hidden then trees
      else [Tree.branch (lang.table.kinds.getD p.rule "") start stop trees.reverse]
    visible := !hidden
    shown := total (·.shownAs) parts
    count := total (·.countAs) parts
    cost := total (·.cost) parts }

def leaf (token : Token) (extra : Bool) : Subtree where
  symbol := token.symbol
  start := token.start
  stop := token.after.pos
  extra := extra
  rank := 0
  trees := []
  visible := !lang.table.hidden.getD token.symbol false

/-- Of several ways to the same stack, keeps the one of the highest rank. -/
def bestWays (ways : List (Subtree × List Subtree × Stack)) :
    List (Subtree × List Subtree × Stack) :=
  ways.foldl (fun kept way =>
    if kept.any (fun k => k.2.2.id == way.2.2.id) then
      kept.map fun k => if k.2.2.id == way.2.2.id && k.1.rank < way.1.rank then way else k
    else kept ++ [way]) []

/-- Puts extras back on a stack. -/
def pushExtras (stack : Stack) : List Subtree → ParseM Stack
  | [] => pure stack
  | e :: rest => do
    let s ← push e stack.state stack
    pushExtras s rest

/-- Takes one token on a stack: reductions first, then the shift, each way that is open. -/
def takeToken : Nat → Token → Stack → ParseM Outcome
  | 0, token, stack => pure { stuck := [(stack, some token)] }
  | fuel + 1, token, stack => do
    let actions ← withAutomaton (Automaton.actionsAt lang.table stack.state token.symbol)
    if actions.reductions.isEmpty && !actions.shifts then
      if token.symbol = lang.table.finish && stack.state = 0 then
        pure { accepted := [⟨stack, reduceParts lang ⟨lang.table.start, #[], 0, 0⟩ [], []⟩] }
      else if lang.table.extras.mem token.symbol then do
        let s ← push (leaf lang token true) stack.state stack
        pure { heads := [⟨s, token.after⟩] }
      else if token.isWord && token.symbol != lang.table.word then do
        let valid ← withAutomaton (Automaton.validAt stack.state)
        let free := valid.mem lang.table.anyWord || !lang.table.reserved.mem token.symbol
        if free && valid.mem lang.table.word then
          takeToken fuel { token with symbol := lang.table.word } stack
        else pure { stuck := [(stack, some token)] }
      else pure { stuck := [(stack, some token)] }
    else do
      let mut outcome : Outcome := {}
      for i in actions.reductions do
        match lang.table.productions[i]? with
        | none => pure ()
        | some p =>
          let ways := (stack.pops p.steps.size []).map fun (tops, under) =>
            let (parts, extras) := splitExtras tops
            (reduceParts lang p parts, extras, under)
          for (top, extras, under) in bestWays ways do
            if p.rule = lang.table.whole then
              outcome := { outcome with accepted := outcome.accepted ++ [⟨under, top, extras⟩] }
            else
              match ← withAutomaton (Automaton.move lang.table under.state p.rule) with
              | none => pure ()
              | some next => do
                let s ← push top next under
                let s ← pushExtras s extras
                outcome := outcome.append (← takeToken fuel token s)
      if actions.shifts then
        match ← withAutomaton (Automaton.move lang.table stack.state token.symbol) with
        | none => pure ()
        | some next => do
          let s ← push (leaf lang token false) next stack
          outcome := outcome.append { heads := [⟨s, token.after⟩] }
      pure outcome

/-- Adds a parse to those under way; one of the same state at the same place is joined. -/
def addHead (heads : List Head) (h : Head) : List Head :=
  match heads with
  | [] => [h]
  | g :: rest =>
    if g.stack.state = h.stack.state ∧ g.cursor.pos = h.cursor.pos then
      { g with stack := Stack.join joinDepth g.stack h.stack } :: rest
    else g :: addHead rest h

/-- Follows the parses that are furthest behind for one more token, until none is left. -/
def follow : Nat → List Head → Outcome → ParseM Outcome
  | 0, _, done => pure done
  | _, [], done => pure done
  | fuel + 1, h :: hs, done => do
    let pos := (h :: hs).foldl (fun p g => min p g.cursor.pos) h.cursor.pos
    let behind := (h :: hs).filter (·.cursor.pos == pos)
    let ahead := (h :: hs).filter (·.cursor.pos != pos)
    let mut outcome : Outcome := {}
    for g in behind do
      let valid ← withAutomaton (Automaton.validAt g.stack.state)
      match lang.lex valid g.cursor with
      | none => outcome := outcome.append { stuck := [(g.stack, none)] }
      | some token =>
        outcome := outcome.append (← takeToken lang (40 * g.cursor.pos + 1000) token g.stack)
    let heads := outcome.heads.foldl addHead ahead
    let stuck := if outcome.stuck.isEmpty then done.stuck else outcome.stuck
    follow fuel heads ⟨[], done.accepted ++ outcome.accepted, stuck⟩

def parseFrom (text : List Char) : ParseM Outcome :=
  follow lang (4 * text.length + 16) [⟨.node 0 0 .none, ⟨0, text⟩⟩] {}

/-- The automaton before anything has been parsed. -/
def Language.automaton : Automaton :=
  let t := lang.table
  ⟨#[[(t.opening, TokenSet.single t.finish)]], {}, {}, {},
    #[Automaton.validIn t [(t.opening, TokenSet.single t.finish)]]⟩

/-- The best complete parse. -/
def Outcome.best (o : Outcome) : Option Subtree :=
  o.accepted.foldl (fun best s =>
    match best with
    | none => some s.top
    | some b => if b.rank < s.top.rank then some s.top else some b) none

def parse (text : List Char) : Outcome := (parseFrom lang text ⟨lang.automaton, 1⟩).1

end

end CodeIndex.Parsing
