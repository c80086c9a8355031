import CodeIndex.Parsing.Table

/-! The parsing automaton of a grammar.  A state is the set of places that a parser may be at, each
with the terminals that may come after its production.  States are made when a parse first reaches
them and then kept. -/

namespace CodeIndex.Parsing

/-- The places of a state with what may follow, in the order of their numbers. -/
abbrev Kernel := List (Nat × TokenSet)

/-- What a parser may do in a state before a terminal. -/
structure Actions where
  /-- Productions that may end here. -/
  reductions : List Nat
  shifts : Bool
  deriving Repr, Inhabited

structure Automaton where
  kernels : Array Kernel
  known : Std.HashMap UInt64 (List Nat)
  /-- By state and symbol: the state after the symbol, if there is one. -/
  moves : Std.HashMap Nat (Option Nat)
  /-- By state and terminal. -/
  actions : Std.HashMap Nat Actions
  /-- By state: the terminals that may come next, with the mark for unreserved words. -/
  valid : Array TokenSet

namespace Automaton

/-- Computing with the automaton, which may grow. -/
abbrev M := StateM Automaton

/-- Adds a place to a kernel. -/
def insertPlace (place : Nat) (follow : TokenSet) : Kernel → Kernel
  | [] => [(place, follow)]
  | (p, f) :: rest =>
    if place < p then (place, follow) :: (p, f) :: rest
    else if place = p then (p, f.union follow) :: rest
    else (p, f) :: insertPlace place follow rest

def hashKernel (k : Kernel) : UInt64 :=
  k.foldl (fun h (p, f) =>
    mixHash (mixHash h p.toUInt64) (mixHash f.toUInt64
      (mixHash (f >>> 64).toUInt64 (f >>> 128).toUInt64))) 7

variable (t : Table)

/-- The production of a place and how many of its steps are done. -/
def productionAt (place : Nat) : NumberedProduction × Nat :=
  let p := t.productions.getD (t.places.getD place 0) ⟨0, #[], 0, 0⟩
  (p, place - p.base)

def stepAt (place : Nat) : Option NumberedStep :=
  let (p, done) := productionAt t place
  p.steps[done]?

def stepBefore (place : Nat) : Option NumberedStep :=
  let (p, done) := productionAt t place
  if done = 0 then none else p.steps[done - 1]?

/-- What may follow the step after a place. -/
def followOf (place : Nat) (follow : TokenSet) : TokenSet :=
  match stepAt t (place + 1) with
  | some s => if (productionAt t (place + 1)).1.base = (productionAt t place).1.base
    then s.first else follow
  | none => follow

/-- The terminals that may come next at a state. -/
def validIn (k : Kernel) : TokenSet :=
  k.foldl (fun set (place, follow) =>
    match stepAt t place with
    | some s => set.union s.first
    | none => set.union follow) TokenSet.empty

def advance (k : Kernel) (symbol : Nat) : Kernel :=
  let starting := t.starting.getD symbol #[]
  k.foldl (fun next (place, follow) =>
    match stepAt t place with
    | none => next
    | some s =>
      let next := if s.symbol = symbol then insertPlace (place + 1) follow next else next
      if s.symbol < t.terminals then next
      else
        let after := followOf t place follow
        let edges := t.edges.getD (s.symbol - t.terminals) #[]
        starting.foldl (fun next i =>
          match t.productions[i]? with
          | none => next
          | some p =>
            match edges.find? (·.rule == p.rule) with
            | none => next
            | some e =>
              insertPlace (p.base + 1) (if e.open_ then e.known.union after else e.known) next)
            next)
    []

/-- The state of a kernel. -/
def intern (k : Kernel) : M Nat := fun a =>
  let h := hashKernel k
  let same := a.known.getD h []
  match same.find? (fun i => a.kernels.getD i [] == k) with
  | some i => (i, a)
  | none =>
    let i := a.kernels.size
    (i, { a with
      kernels := a.kernels.push k
      known := a.known.insert h (i :: same)
      valid := a.valid.push (validIn t k) })

def key (state symbol : Nat) : Nat := state * 1024 + symbol

def move (state symbol : Nat) : M (Option Nat) := fun a =>
  match a.moves[key state symbol]? with
  | some next => (next, a)
  | none =>
    match advance t (a.kernels.getD state []) symbol with
    | [] => (none, { a with moves := a.moves.insert (key state symbol) none })
    | k =>
      let (next, a) := intern t k a
      (some next, { a with moves := a.moves.insert (key state symbol) (some next) })

/-- An entry of a ranking speaks of a precedence, or of one of the rules. -/
def entryMatches (entry : Ranked) (p : Precedence) (rules : List Nat) : Bool :=
  match entry with
  | .precedence name => p = .named name
  | .rule name => rules.any fun r => t.names.getD r "" == name

/-- Compares two precedences by one ranking, if both stand in it. -/
def compareIn (p : Precedence) (ps : List Nat) (q : Precedence) (qs : List Nat)
    (sawP sawQ : Bool) : List Ranked → Option Ordering
  | [] => none
  | entry :: rest =>
    if entryMatches t entry p ps then
      if sawQ then some .lt else compareIn p ps q qs true sawQ rest
    else if entryMatches t entry q qs then
      if sawP then some .gt else compareIn p ps q qs sawP true rest
    else compareIn p ps q qs sawP sawQ rest

/-- Compares two precedences, each with the rules that it comes from. -/
def comparePrecedence (p : Precedence) (ps : List Nat) (q : Precedence) (qs : List Nat) :
    Ordering :=
  (t.rankings.findSome? (compareIn t p ps q qs false false)).getD .eq

/-- The reductions that are left, with their common precedence, rules and associativities. -/
structure Reducing where
  reductions : List Nat := []
  precedence : Precedence := .none
  rules : List Nat := []
  assocs : List (Option Assoc) := []

/-- Takes in one more reduction; lower ones give way to higher ones. -/
def Reducing.add (r : Reducing) (production : Nat) (rule : Nat) (last : Option NumberedStep) :
    Reducing :=
  let precedence := (last.map (·.precedence)).getD .none
  let assoc := last.bind (·.assoc)
  let only : Reducing := ⟨[production], precedence, [rule], [assoc]⟩
  if r.reductions.isEmpty then only
  else match comparePrecedence t precedence [rule] r.precedence r.rules with
    | .gt => only
    | .lt => r
    | .eq => ⟨r.reductions ++ [production], precedence, r.rules ++ [rule], r.assocs ++ [assoc]⟩

/-- Settles a state's actions before a terminal: a shift against reductions by precedence, then by
associativity.  Between the entries of one list the entry ends.  What is left unsettled is tried
both ways. -/
def resolve (k : Kernel) (terminal : Nat) : Actions :=
  let reducing := k.foldl (fun r (place, follow) =>
    match stepAt t place with
    | some _ => r
    | none =>
      if follow.mem terminal then
        Reducing.add t r (t.places.getD place 0) (productionAt t place).1.rule (stepBefore t place)
      else r) ({} : Reducing)
  let shifting := k.filter fun (place, _) =>
    match stepAt t place with
    | some s => s.first.mem terminal
    | none => false
  if shifting.isEmpty then ⟨reducing.reductions, false⟩
  else if reducing.reductions.isEmpty then ⟨[], true⟩
  else if reducing.rules.all (fun r => t.lists.getD r false
      && shifting.all fun (place, _) => (productionAt t place).1.rule == r) then
    ⟨reducing.reductions, false⟩
  else
    let orders := shifting.map fun (place, _) =>
      match stepBefore t place with
      | none => Ordering.eq
      | some s =>
        comparePrecedence t s.precedence [(productionAt t place).1.rule]
          reducing.precedence reducing.rules
    if orders.contains .gt then ⟨[], true⟩
    else if orders.contains .lt then ⟨reducing.reductions, false⟩
    else if reducing.assocs.all (· == some .left) then ⟨reducing.reductions, false⟩
    else if reducing.assocs.all (· == some .right) then ⟨[], true⟩
    else ⟨reducing.reductions, true⟩

def actionsAt (state terminal : Nat) : M Actions := fun a =>
  match a.actions[key state terminal]? with
  | some actions => (actions, a)
  | none =>
    let actions := resolve t (a.kernels.getD state []) terminal
    (actions, { a with actions := a.actions.insert (key state terminal) actions })

/-- The terminals that may come next at a state. -/
def validAt (state : Nat) : M TokenSet := fun a => (a.valid.getD state TokenSet.empty, a)

end Automaton

end CodeIndex.Parsing
