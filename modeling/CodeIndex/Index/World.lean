import CodeIndex.Files.Walk
import CodeIndex.Index.Action

/-! Surroundings in which jobs are carried out: files, a store, an embedder, and the identifiers
that are given out. -/

namespace CodeIndex.Index

open CodeIndex.Embedding (EmbedError)
open Files (Entry IoError)

/-- A store and an embedder that work on a state. -/
structure Services (σ : Type) where
  store : σ → (c : Store.Call) → c.Answer × σ
  embed : σ → List String → Except EmbedError (List (Array Float32)) × σ

/-- The store in memory, with an embedder that always answers alike. -/
def Services.memory (embed : List String → Except EmbedError (List (Array Float32))) :
    Services Store.Memory where
  store := Store.Memory.perform
  embed s texts := (embed texts, s)

/-- What jobs work on. -/
structure World (σ : Type) where
  services : Services σ
  /-- The state of the store and of the embedder. -/
  state : σ
  files : Entry
  /-- The identifiers in the order in which they are given out. -/
  ids : Nat → String
  /-- How many identifiers were given out. -/
  used : Nat := 0
  locks : Locks := {}
  /-- In milliseconds. -/
  time : Nat := 0

def readSource (files : Entry) (path : String) : Except IoError SourceFile := do
  let text ← files.readText path
  let (bytes, modified) ← files.readBytes path
  pure ⟨text, bytes.size, modified⟩

namespace World

variable {σ : Type}

def onLocks {α : Type} (f : Locks → α × Locks) : StateM (World σ) α := fun w =>
  let (a, locks) := f w.locks
  (a, { w with locks })

def carryOut : (action : Action) → StateM (World σ) action.Answer
  | .obtainLock collection path => onLocks fun l => l.lockFor (lockKey collection path)
  | .acquire lock => onLocks fun l => ((), l.acquire lock)
  | .release lock => onLocks fun l => ((), l.release lock)
  | .forget lock => onLocks fun l => ((), l.forget lock)
  | .store call => fun w =>
    let (answer, state) := w.services.store w.state call
    (answer, { w with state })
  | .embed texts => fun w =>
    let (answer, state) := w.services.embed w.state texts
    (answer, { w with state })
  | .read path => fun w => (readSource w.files path, w)
  | .isDirectory path => fun w => (w.files.hasDirectory path, w)
  | .walk root => fun w => (Files.walk w.files root, w)
  | .freshId => fun w => (w.ids w.used, { w with used := w.used + 1 })
  | .clock => fun w => (w.time, w)

/-- Carries out a job on its own, from its first action to its last. -/
def finish {α : Type} (job : Job α) (w : World σ) : α × World σ := job.run carryOut w

/-- The same for a job that may fail. -/
def attempt {ε α : Type} (job : Attempt ε α) (w : World σ) : Except ε α × World σ :=
  finish job.run w

end World

end CodeIndex.Index
