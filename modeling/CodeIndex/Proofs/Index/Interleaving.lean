import CodeIndex.Proofs.Index.Plan

/-! Calls that bring files up to date at the same time.  They share the store, the locks and the
supply of identifiers; the files and the embedder may be others at every step. -/

namespace CodeIndex.Index

open Files (Entry)
open Store (Memory)

/-- One turn: a caller takes its next step, in the surroundings of that moment. -/
structure Turn where
  caller : Nat
  files : Entry
  embed : Embedder

/-- A call under way: what it still has to do, and the files and the embedder that it met when it
last read and when it last embedded. -/
structure Caller where
  name : String
  path : String
  files : Entry
  embed : Embedder
  rest : Job (Except IndexError FileReport)

/-- The file of a collection that a caller works on. -/
def Caller.slot (c : Caller) : String × String := (c.name, c.path)

/-- The call is over. -/
def Caller.isDone (c : Caller) : Bool :=
  match c.rest with
  | .done _ => true
  | .ask .. => false

/-- What a call reports that is over and did not fail. -/
def Caller.report? (c : Caller) : Option FileReport :=
  match c.rest with
  | .done (.ok report) => some report
  | _ => none

/-- What a caller remembers of the surroundings in which it acts. -/
def Caller.meet (c : Caller) (t : Turn) : Action → Caller
  | .read _ => { c with files := t.files }
  | .embed _ => { c with embed := t.embed }
  | _ => c

@[simp] theorem Caller.name_meet (c : Caller) (t : Turn) (action : Action) :
    (c.meet t action).name = c.name := by
  cases action <;> rfl

@[simp] theorem Caller.path_meet (c : Caller) (t : Turn) (action : Action) :
    (c.meet t action).path = c.path := by
  cases action <;> rfl

/-- The action takes a lock. -/
def Action.takes : Action → Bool
  | .acquire _ => true
  | _ => false

/-- The action has to wait for a lock. -/
def Action.waits (l : Locks) : Action → Bool
  | .acquire lock => !l.isFree lock
  | _ => false

/-- Callers at work in one world, and those who took a lock, the last one first. -/
structure System where
  world : World Memory
  callers : List Caller
  taken : List Nat

namespace System

/-- A call for each file of a collection, none of which has begun. -/
def start (o : Chunk.Options) (w : World Memory) (calls : List (String × String)) : System where
  world := w
  callers := calls.map fun (name, path) =>
    ⟨name, path, w.files, fun _ => .ok [], reconcileFile o name path⟩
  taken := []

/-- The callers in the order in which they took their locks. -/
def order (s : System) : List Nat := s.taken.reverse

/-- The world of a turn. -/
def around (s : System) (t : Turn) : World Memory :=
  { s.world with services := .memory t.embed, files := t.files }

/-- A caller takes its next step, unless it is done or has to wait. -/
def step (s : System) (t : Turn) : System :=
  match s.callers[t.caller]? with
  | none => s
  | some caller =>
    match caller.rest with
    | .done _ => s
    | .ask action next =>
      if action.waits s.world.locks then s
      else
        let (answer, world) := World.carryOut action (s.around t)
        { world
          callers := s.callers.set t.caller { caller.meet t action with rest := next answer }
          taken := if action.takes then t.caller :: s.taken else s.taken }

def run (s : System) (turns : List Turn) : System := turns.foldl step s

variable {s : System} {t : Turn} {c : Caller} {action : Action}
  {next : action.Answer → Job (Except IndexError FileReport)}

theorem step_of_none (h : s.callers[t.caller]? = none) : s.step t = s := by
  rw [step, h]

theorem step_of_done (h : s.callers[t.caller]? = some c) {outcome : Except IndexError FileReport}
    (hrest : c.rest = .done outcome) : s.step t = s := by
  simp only [step, h, hrest]

theorem step_of_waits (h : s.callers[t.caller]? = some c) (hrest : c.rest = .ask action next)
    (hwaits : action.waits s.world.locks = true) : s.step t = s := by
  simp only [step, h, hrest, hwaits, if_true]

/-- The step of a caller that need not wait. -/
theorem step_of_ask (h : s.callers[t.caller]? = some c) (hrest : c.rest = .ask action next)
    (hwaits : action.waits s.world.locks = false) :
    s.step t =
      { world := (World.carryOut action (s.around t)).2
        callers := s.callers.set t.caller
          { c.meet t action with rest := next (World.carryOut action (s.around t)).1 }
        taken := if action.takes then t.caller :: s.taken else s.taken } := by
  simp only [step, h, hrest, hwaits, Bool.false_eq_true, if_false]
  rfl

/-- What a step can be: nothing, when there is no such caller or it is done or has to wait, or else the
next action of the caller. -/
theorem step_cases (s : System) (t : Turn) :
    s.step t = s ∨ ∃ c action next, s.callers[t.caller]? = some c ∧ c.rest = .ask action next ∧
      action.waits s.world.locks = false ∧
      s.step t =
        { world := (World.carryOut action (s.around t)).2
          callers := s.callers.set t.caller
            { c.meet t action with rest := next (World.carryOut action (s.around t)).1 }
          taken := if action.takes then t.caller :: s.taken else s.taken } := by
  cases h : s.callers[t.caller]? with
  | none => exact .inl (step_of_none h)
  | some c =>
    cases hrest : c.rest with
    | done outcome => exact .inl (step_of_done h hrest)
    | ask action next =>
      cases hwaits : action.waits s.world.locks with
      | true => exact .inl (step_of_waits h hrest hwaits)
      | false => exact .inr ⟨c, action, next, rfl, hrest, hwaits, step_of_ask h hrest hwaits⟩

/-- No step changes what a caller works on. -/
theorem slots_step (s : System) (t : Turn) :
    (s.step t).callers.map Caller.slot = s.callers.map Caller.slot := by
  rcases s.step_cases t with hsame | ⟨c, action, next, h, -, -, hstep⟩
  · rw [hsame]
  · obtain ⟨hlt, hget⟩ := List.getElem?_eq_some_iff.1 h
    have hbound : t.caller < (s.callers.map Caller.slot).length := by rwa [List.length_map]
    have hslot : Caller.slot { c.meet t action with
        rest := next (World.carryOut action (s.around t)).1 } =
        (s.callers.map Caller.slot)[t.caller] := by
      rw [List.getElem_map, hget, Caller.slot, Caller.name_meet, Caller.path_meet]
      rfl
    rw [hstep, List.map_set, hslot]
    exact List.set_getElem_self _

theorem length_callers_step (s : System) (t : Turn) :
    (s.step t).callers.length = s.callers.length := by
  have hlength := congrArg List.length (s.slots_step t)
  rwa [List.length_map, List.length_map] at hlength

theorem callers_step_of_ne {k : Nat} (hk : k ≠ t.caller) :
    (s.step t).callers[k]? = s.callers[k]? := by
  rcases s.step_cases t with hsame | ⟨c, action, next, -, -, -, hstep⟩
  · rw [hsame]
  · rw [hstep, List.getElem?_set_ne hk.symm]

theorem mem_taken_step (s : System) (t : Turn) {k : Nat} (hk : k ∈ (s.step t).taken) :
    k ∈ s.taken ∨ k < s.callers.length := by
  rcases s.step_cases t with hsame | ⟨c, action, next, h, -, -, hstep⟩
  · rw [hsame] at hk
    exact .inl hk
  · rw [hstep] at hk
    by_cases htakes : action.takes = true
    · rw [if_pos htakes] at hk
      rcases List.mem_cons.1 hk with rfl | hk
      · exact .inr (List.getElem?_eq_some_iff.1 h).1
      · exact .inl hk
    · rw [if_neg htakes] at hk
      exact .inl hk

/-- Who has taken a lock stays in the order. -/
theorem taken_suffix_step (s : System) (t : Turn) : s.taken <:+ (s.step t).taken := by
  rcases s.step_cases t with hsame | ⟨c, action, next, -, -, -, hstep⟩
  · simp only [hsame, List.suffix_rfl]
  · rw [hstep]
    dsimp only
    split
    · exact List.suffix_cons _ _
    · exact List.suffix_rfl

theorem slots_run (s : System) (turns : List Turn) :
    (s.run turns).callers.map Caller.slot = s.callers.map Caller.slot := by
  induction turns generalizing s with
  | nil => rfl
  | cons turn turns ih => exact (ih (s.step turn)).trans (s.slots_step turn)

theorem length_callers_run (s : System) (turns : List Turn) :
    (s.run turns).callers.length = s.callers.length := by
  induction turns generalizing s with
  | nil => rfl
  | cons turn turns ih => exact (ih (s.step turn)).trans (s.length_callers_step turn)

theorem mem_taken_run (s : System) (turns : List Turn) {k : Nat} (hk : k ∈ (s.run turns).taken) :
    k ∈ s.taken ∨ k < s.callers.length := by
  induction turns generalizing s with
  | nil => exact .inl hk
  | cons turn turns ih =>
    rcases ih (s.step turn) hk with hk | hk
    · exact s.mem_taken_step turn hk
    · exact .inr (s.length_callers_step turn ▸ hk)

end System

/-- Carries out calls one after the other, each with the files and the embedder that it met. -/
def inTurn (o : Chunk.Options) :
    List Caller → World Memory → List (Except IndexError FileReport) × World Memory
  | [], w => ([], w)
  | c :: rest, w =>
    let (outcome, w) := World.finish (reconcileFile o c.name c.path)
      { w with services := .memory c.embed, files := c.files }
    let (outcomes, w) := inTurn o rest w
    (outcome :: outcomes, w)

end CodeIndex.Index
