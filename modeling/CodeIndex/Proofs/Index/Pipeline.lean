import CodeIndex.Proofs.Index.Arrival

/-! The pipeline that keeps a collection up to date while its files are watched.  Reports of changes
wait in a queue.  The reindexer takes them in their order, and it takes the next one when its call for
the one before is over, whatever came of that call; only a fault puts an end to it.  Between any two
steps files may be written, and others may ask for files to be brought up to date. -/

namespace CodeIndex.Index

open Files (Entry)
open Store (Memory)

inductive Step where
  /-- Something is written, and the files are these from now on. -/
  | write (files : Entry)
  | report (path : String)
  /-- The reindexer takes the next report. -/
  | next
  /-- Somebody else asks for a file. -/
  | call (name path : String)
  /-- A call takes its next step. -/
  | turn (caller : Nat) (embed : Embedder)

/-- Calls at work, the files, the reports that wait, and the calls that the reindexer has begun, the
last one first. -/
structure Pipeline where
  system : System
  files : Entry
  queue : List String
  handled : List Nat

/-- The call is over, and no fault has broken it off. -/
def Caller.isOver (c : Caller) : Bool :=
  match c.rest with
  | .done outcome => (faultOf outcome).isNone
  | .ask .. => false

/-- The paths that are reported. -/
def reports : List Step → List String :=
  List.filterMap fun
    | .report path => some path
    | _ => none

/-- An action with the answer to it. -/
abbrev Answered := (action : Action) × action.Answer

/-- With these answers a job comes to what is left of it. -/
inductive Task.Leads {α : Type} : List Answered → Job α → Job α → Prop
  | refl (t : Job α) : Leads [] t t
  | step {action : Action} {next : action.Answer → Job α} {answer : action.Answer}
      {given : List Answered} {rest : Job α} (h : Leads given (next answer) rest) :
      Leads (⟨action, answer⟩ :: given) (.ask action next) rest

theorem Task.Leads.trans {α : Type} {given more : List Answered} {t u v : Job α}
    (h : Task.Leads given t u) (hmore : Task.Leads more u v) : Task.Leads (given ++ more) t v := by
  induction h with
  | refl t => exact hmore
  | step _ ih => exact .step (ih hmore)

theorem Task.Leads.bind {α β : Type} {given : List Answered} {t u : Job α}
    (h : Task.Leads given t u) (f : α → Job β) : Task.Leads given (t >>= f) (u >>= f) := by
  induction h with
  | refl t => exact .refl _
  | step _ ih => exact .step ih

/-- The action that a caller carries out in its turn, with the answer. -/
def System.answer? (s : System) (t : Turn) : Option Answered :=
  match s.callers[t.caller]?.map Caller.rest with
  | some (.ask action _) =>
    if action.waits s.world.locks then none
    else some ⟨action, (World.carryOut action (s.around t)).1⟩
  | _ => none

namespace Pipeline

def start (o : Chunk.Options) (w : World Memory) : Pipeline := ⟨.start o w [], w.files, [], []⟩

/-- The call of the reindexer that is under way, or that was the last to be. -/
def current (p : Pipeline) : Option Caller := p.handled.head?.bind (p.system.callers[·]?)

/-- The reindexer has nothing under way, and goes on. -/
def isIdle (p : Pipeline) : Bool := p.current.all Caller.isOver

/-- The reindexer begins a call for the next report, if it has nothing under way. -/
def takeNext (o : Chunk.Options) (name : String) (p : Pipeline) : Pipeline :=
  match p.queue with
  | [] => p
  | path :: rest =>
    if p.isIdle then
      { p with
        system := p.system.spawn o name path
        queue := rest
        handled := p.system.callers.length :: p.handled }
    else p

def step (o : Chunk.Options) (name : String) (p : Pipeline) : Step → Pipeline
  | .write files => { p with files }
  | .report path => { p with queue := p.queue ++ [path] }
  | .next => p.takeNext o name
  | .call name path => { p with system := p.system.spawn o name path }
  | .turn caller embed => { p with system := p.system.step ⟨caller, p.files, embed⟩ }

def run (o : Chunk.Options) (name : String) (p : Pipeline) (steps : List Step) : Pipeline :=
  steps.foldl (step o name) p

/-- No report waits, and no call is under way. -/
def Quiet (p : Pipeline) : Prop := p.queue = [] ∧ ∀ c ∈ p.system.callers, c.isDone = true

/-- The file of a collection that a call works on. -/
def asked (p : Pipeline) (k : Nat) : Option (String × String) :=
  (p.system.callers[k]?).map Caller.slot

variable {o : Chunk.Options} {name : String} {p : Pipeline} {k : Nat} {c : Caller}

theorem reports_cons (st : Step) (rest : List Step) :
    reports (st :: rest) = reports [st] ++ reports rest :=
  List.filterMap_append (l := [st])

theorem run_append (p : Pipeline) (before after : List Step) :
    p.run o name (before ++ after) = (p.run o name before).run o name after :=
  List.foldl_append

theorem takeNext_of_cons {path : String} {rest : List String} (hqueue : p.queue = path :: rest)
    (hidle : p.isIdle = true) :
    p.takeNext o name =
      { p with
        system := p.system.spawn o name path
        queue := rest
        handled := p.system.callers.length :: p.handled } := by
  simp only [takeNext, hqueue, hidle, if_true]

/-- What taking the next report can be: nothing, or beginning a call. -/
theorem takeNext_cases (o : Chunk.Options) (name : String) (p : Pipeline) :
    p.takeNext o name = p ∨ ∃ path rest, p.queue = path :: rest ∧ p.isIdle = true ∧
      p.takeNext o name =
        { p with
          system := p.system.spawn o name path
          queue := rest
          handled := p.system.callers.length :: p.handled } := by
  cases hqueue : p.queue with
  | nil => exact .inl (by simp only [takeNext, hqueue])
  | cons path rest =>
    cases hidle : p.isIdle with
    | false =>
      refine .inl ?_
      simp only [takeNext, hqueue, hidle, Bool.false_eq_true, if_false]
    | true => exact .inr ⟨path, rest, rfl, rfl, takeNext_of_cons hqueue hidle⟩

/-! ### The job of the reindexer -/

/-- What the reindexer has left to do. -/
def remaining (o : Chunk.Options) (name : String) (p : Pipeline) : Attempt Fault Unit :=
  match p.current with
  | none => reindex o name p.queue
  | some c => do
    let outcome ← ExceptT.lift c.rest
    goOn id outcome
    reindex o name p.queue

/-- What a step answers to the call of the reindexer, if it is a turn of this call. -/
def answer? (p : Pipeline) : Step → Option Answered
  | .turn k embed =>
    if p.handled.head? = some k then p.system.answer? ⟨k, p.files, embed⟩ else none
  | _ => none

/-- What the steps answer to the calls of the reindexer. -/
def answers (o : Chunk.Options) (name : String) (p : Pipeline) : List Step → List Answered
  | [] => []
  | st :: rest => (p.answer? st).toList ++ answers o name (p.step o name st) rest

theorem callers_spawn_length (s : System) (name path : String) :
    (s.spawn o name path).callers[s.callers.length]? =
      some ⟨name, path, s.world.files, fun _ => .ok [], reconcileFile o name path⟩ :=
  List.getElem?_concat_length

theorem asked_step_turn (s : System) (turn : Turn) (k : Nat) :
    ((s.step turn).callers[k]?).map Caller.slot = (s.callers[k]?).map Caller.slot := by
  rw [← List.getElem?_map, ← List.getElem?_map, s.slots_step turn]

theorem asked_spawn (s : System) (path : String) {k : Nat} (hk : k < s.callers.length) :
    ((s.spawn o name path).callers[k]?).map Caller.slot = (s.callers[k]?).map Caller.slot := by
  rw [System.spawn, List.getElem?_append_left hk]

/-- The calls of the reindexer, and after them the reports that wait, are for what was reported. -/
structure Accounts (name : String) (reported : List String) (p : Pipeline) : Prop where
  begun : ∀ k ∈ p.handled, k < p.system.callers.length
  reports : p.handled.reverse.map p.asked ++ p.queue.map (fun path => some (name, path)) =
    reported.map fun path => some (name, path)

namespace Accounts

variable {reported : List String}

theorem start (o : Chunk.Options) (name : String) (w : World Memory) :
    Accounts name [] (Pipeline.start o w) where
  begun _ hk := absurd hk List.not_mem_nil
  reports := rfl

/-- Calls that go on, or that others begin, make no difference. -/
theorem keep (h : Accounts name reported p) {s : System}
    (hlength : p.system.callers.length ≤ s.callers.length)
    (hasked : ∀ k < p.system.callers.length,
      (s.callers[k]?).map Caller.slot = (p.system.callers[k]?).map Caller.slot) :
    Accounts name reported { p with system := s } where
  begun k hk := Nat.lt_of_lt_of_le (h.begun k hk) hlength
  reports := by
    refine Eq.trans (congrArg (· ++ _) ?_) h.reports
    exact List.map_congr_left fun k hk => hasked k (h.begun k (List.mem_reverse.1 hk))

theorem takeNext (h : Accounts name reported p) : Accounts name reported (p.takeNext o name) := by
  rcases p.takeNext_cases o name with hsame | ⟨path, rest, hqueue, -, hnext⟩
  · rwa [hsame]
  · have hspawn := h.keep (s := p.system.spawn o name path) (by simp [System.spawn])
      fun k hk => asked_spawn p.system path hk
    have hnew : asked { p with system := p.system.spawn o name path } p.system.callers.length =
        some (name, path) := by
      rw [asked, callers_spawn_length]
      rfl
    rw [hnext]
    refine ⟨fun k hk => ?_, ?_⟩
    · rcases List.mem_cons.1 hk with rfl | hk
      · simp [System.spawn]
      · exact hspawn.begun k hk
    · have hreports := hspawn.reports
      rw [hqueue, List.map_cons, ← hnew] at hreports
      rw [List.reverse_cons, List.map_append, List.append_assoc]
      exact hreports

theorem step (h : Accounts name reported p) (st : Step) :
    Accounts name (reported ++ Index.reports [st]) (p.step o name st) := by
  cases st with
  | report path =>
    refine ⟨h.begun, ?_⟩
    show p.handled.reverse.map p.asked ++ (p.queue ++ [path]).map _ = (reported ++ [path]).map _
    rw [List.map_append, List.map_append, ← List.append_assoc, h.reports]
  | write files =>
    rw [show Index.reports [.write files] = [] from rfl, List.append_nil]
    exact ⟨h.begun, h.reports⟩
  | next =>
    rw [show Index.reports [.next] = [] from rfl, List.append_nil]
    exact h.takeNext
  | call other path =>
    rw [show Index.reports [.call other path] = [] from rfl, List.append_nil]
    exact h.keep (by simp [System.spawn]) fun k hk => asked_spawn p.system path hk
  | turn caller embed =>
    rw [show Index.reports [.turn caller embed] = [] from rfl, List.append_nil]
    exact h.keep (Nat.le_of_eq (System.length_callers_step ..).symm) fun k _ => asked_step_turn ..

theorem run (h : Accounts name reported p) (steps : List Step) :
    Accounts name (reported ++ Index.reports steps) (p.run o name steps) := by
  induction steps generalizing p reported with
  | nil =>
    rw [show Index.reports [] = [] from rfl, List.append_nil]
    exact h
  | cons st rest ih =>
    rw [reports_cons, ← List.append_assoc]
    exact ih (h.step st)

end Accounts

end Pipeline

end CodeIndex.Index
