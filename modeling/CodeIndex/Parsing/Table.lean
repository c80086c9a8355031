import CodeIndex.Parsing.Production
import Std.Data.HashMap

/-! A grammar prepared for parsing: symbols and productions by number, the terminals that can start
each rule, and for each rule the rules that can stand at its left edge with what may follow them
there. -/

namespace CodeIndex.Parsing

/-- A set of terminals, as the bits of a number. -/
abbrev TokenSet := Nat

namespace TokenSet

def empty : TokenSet := 0

def single (t : Nat) : TokenSet := 1 <<< t

def union (a b : TokenSet) : TokenSet := a ||| b

def mem (t : Nat) (s : TokenSet) : Bool := s.testBit t

def subset (a b : TokenSet) : Bool := a ||| b == b

end TokenSet

/-- A step with its symbol by number. -/
structure NumberedStep where
  symbol : Nat
  precedence : Precedence
  assoc : Option Assoc
  /-- The terminals that can stand here. -/
  first : TokenSet

structure NumberedProduction where
  rule : Nat
  steps : Array NumberedStep
  rank : Int
  /-- The number of the place before the first step; the places of a production are consecutive. -/
  base : Nat

/-- What follows a rule at the left edge of another: terminals that are known, and whether also all
that follows the other. -/
structure Edge where
  rule : Nat
  known : TokenSet
  open_ : Bool

structure Table where
  /-- Terminals have the numbers below this one, rules those from it on. -/
  terminals : Nat
  names : Array String
  numbers : Std.HashMap String Nat
  productions : Array NumberedProduction
  /-- The production of each place. -/
  places : Array Nat
  /-- For each rule, the rules at its left edge, itself included. -/
  edges : Array (Array Edge)
  /-- For each symbol, the productions that start with it. -/
  starting : Array (Array Nat)
  hidden : Array Bool
  kinds : Array String
  /-- The rules that are lists of repetitions. -/
  lists : Array Bool
  rankings : List (List Ranked)
  extras : TokenSet
  reserved : TokenSet
  word : Nat
  /-- Marks, in a set, that an identifier there may be any word. -/
  anyWord : Nat
  /-- The end of the text. -/
  finish : Nat
  /-- The rule of a text. -/
  start : Nat
  /-- The rule of a text with its end. -/
  whole : Nat
  /-- The place before a whole text. -/
  opening : Nat

namespace Table

/-- The name that stands for the end of the text among the terminals. -/
def finishName : String := "end of text"

/-- The name of the mark for unreserved words. -/
def anyWordName : String := "any word"

def wholeName : String := "whole text"

/-- Adds the names that are not there yet. -/
def collect (names : Array String × Std.HashMap String Nat) (more : List String) :
    Array String × Std.HashMap String Nat :=
  more.foldl (fun (names, numbers) name =>
    if numbers.contains name then (names, numbers)
    else (names.push name, numbers.insert name names.size)) names

/-- Lets a function work on a value until nothing changes, at most `steps` times. -/
def settle {α : Type} (changed : α → α → Bool) (f : α → α) : Nat → α → α
  | 0, a => a
  | steps + 1, a =>
    let b := f a
    if changed a b then settle changed f steps b else b

/-- One round of looking at what the rules can start with. -/
def firstRound (terminals : Nat) (productions : Array (Nat × List (Nat × Bool))) (anyWord : Nat)
    (firsts : Array TokenSet) : Array TokenSet :=
  productions.foldl (fun firsts (rule, steps) =>
    match steps with
    | [] => firsts
    | (symbol, unreserved) :: _ =>
      let start := if symbol < terminals then TokenSet.single symbol else firsts.getD symbol 0
      let start := if unreserved then start.union (TokenSet.single anyWord) else start
      firsts.modify rule (·.union start)) firsts

/-- Joins an edge into those found; tells whether it says anything new. -/
def joinEdge (edges : Array Edge) (e : Edge) : Array Edge × Bool :=
  match edges.findIdx? (·.rule == e.rule) with
  | none => (edges.push e, true)
  | some i =>
    let old := edges.getD i e
    let joined : Edge := ⟨e.rule, old.known.union e.known, old.open_ || e.open_⟩
    (edges.setIfInBounds i joined, joined.known != old.known || joined.open_ != old.open_)

/-- The rules at the left edge of those still to be looked at. -/
def leftEdges (heads : Array (Array (Nat × Option TokenSet))) (terminals : Nat) :
    Nat → List Edge → Array Edge → Array Edge
  | 0, _, found => found
  | _, [], found => found
  | steps + 1, e :: todo, found =>
    let current := (found.find? (·.rule == e.rule)).getD e
    let next := (heads.getD (e.rule - terminals) #[]).toList.map fun (rule, follow) =>
      match follow with
      | some known => (⟨rule, known, false⟩ : Edge)
      | none => ⟨rule, current.known, current.open_⟩
    let (todo, found) := next.foldl (fun (todo, found) e =>
      let (found, new) := joinEdge found e
      (if new then e :: todo else todo, found)) (todo, found)
    leftEdges heads terminals steps todo found

def ofGrammar (g : Grammar) : Table :=
  let opening : Production := ⟨wholeName, ⟨[⟨g.start, .none, none, false⟩], 0⟩⟩
  let productions := opening :: g.productions
  let rules :=
    wholeName :: ((g.rules.map (·.1)).filter (!g.inlined.contains ·) ++ g.lists.map (·.1))
  let isRule := rules.foldl (fun (s : Std.HashMap String Unit) r => s.insert r ()) {}
  let used := productions.flatMap fun p => p.path.steps.map (·.symbol)
  let leaves := used.filter (!isRule.contains ·)
  let (names, numbers) := collect (#[], {})
    ([finishName, anyWordName, g.word] ++ g.extras ++ leaves ++ g.reserved)
  let terminals := names.size
  let (names, numbers) := collect (names, numbers) rules
  let number (name : String) : Nat := numbers.getD name 0
  let anyWord := number anyWordName
  let plain := (productions.map fun p =>
    (number p.rule, p.path.steps.map fun s => (number s.symbol, s.unreserved))).toArray
  let firsts := settle (fun a b => a != b) (firstRound terminals plain anyWord) names.size
    (Array.replicate names.size TokenSet.empty)
  let numbered (s : Step) : NumberedStep :=
    let symbol := number s.symbol
    let first := if symbol < terminals then TokenSet.single symbol else firsts.getD symbol 0
    ⟨symbol, s.precedence, s.assoc,
      if s.unreserved then first.union (TokenSet.single anyWord) else first⟩
  let (productions, _) := productions.foldl (fun (done, base) p =>
    let steps := (p.path.steps.map numbered).toArray
    (done.push ⟨number p.rule, steps, p.path.rank, base⟩, base + steps.size + 1))
    ((#[] : Array NumberedProduction), 0)
  let places := productions.toList.zipIdx.foldl (fun places (p, i) =>
    places ++ Array.replicate (p.steps.size + 1) i) #[]
  let heads := productions.foldl (fun heads p =>
    match p.steps[0]? with
    | some s =>
      if s.symbol < terminals then heads
      else heads.modify (p.rule - terminals) (·.push (s.symbol, (p.steps[1]?).map (·.first)))
    | none => heads) (Array.replicate rules.length #[])
  let edges := (Array.range rules.length).map fun i =>
    let self : Edge := ⟨terminals + i, TokenSet.empty, true⟩
    leftEdges heads terminals (rules.length * rules.length * 8) [self] #[self]
  let starting := productions.toList.zipIdx.foldl (fun starting (p, i) =>
    match p.steps[0]? with
    | some s => starting.modify s.symbol (·.push i)
    | none => starting) (Array.replicate names.size #[])
  let setOf (names : List String) : TokenSet :=
    names.foldl (fun s n => s.union (TokenSet.single (number n))) TokenSet.empty
  { terminals, names, numbers, productions, places, edges, starting
    hidden := names.map fun n =>
      n == wholeName || g.hidden.contains n || (g.lists.lookup n).isSome
    lists := names.map fun n => (g.lists.lookup n).isSome
    kinds := names.map fun n => (g.kinds.lookup n).getD n
    rankings := g.rankings
    extras := setOf g.extras
    reserved := setOf g.reserved
    word := number g.word
    anyWord
    finish := number finishName
    start := number g.start
    whole := number wholeName
    opening := 0 }

end Table

end CodeIndex.Parsing
