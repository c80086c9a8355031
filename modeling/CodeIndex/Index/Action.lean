import CodeIndex.Index.Error
import CodeIndex.Index.Locks
import CodeIndex.Index.Task
import CodeIndex.Store.Call

/-! The actions that indexing and searching consist of. -/

namespace CodeIndex.Index

open CodeIndex.Embedding (EmbedError)
open Files (IoError)

/-- A file that was read: its text, its size in bytes, and the time of its last change, in
milliseconds from the beginning of 1970. -/
structure SourceFile where
  text : String
  size : Nat
  modified : Int
  deriving DecidableEq, Repr

inductive Action where
  /-- Asks for the lock of a file, to keep it. -/
  | obtainLock (collection path : String)
  /-- Waits until a lock is free and takes it. -/
  | acquire (lock : LockId)
  | release (lock : LockId)
  /-- Keeps a lock no longer. -/
  | forget (lock : LockId)
  | store (call : Store.Call)
  | read (path : String)
  | isDirectory (path : String)
  /-- Lists the files below a directory that are not to be ignored. -/
  | walk (root : String)
  | embed (texts : List String)
  /-- Makes an identifier that has not been used yet. -/
  | freshId
  /-- Reads a clock that counts milliseconds. -/
  | clock

namespace Action

/-- What comes back from an action. -/
abbrev Answer : Action → Type
  | obtainLock .. => LockId
  | acquire _ => Unit
  | release _ => Unit
  | forget _ => Unit
  | store call => call.Answer
  | read _ => Except IoError SourceFile
  | isDirectory _ => Bool
  | walk _ => List String
  | embed _ => Except EmbedError (List (Array Float32))
  | freshId => String
  | clock => Nat

end Action

/-- A task of indexing or searching. -/
abbrev Job := Task Action Action.Answer

/-- A job that may fail with an error of kind `ε`. -/
abbrev Attempt (ε : Type) := ExceptT ε Job

def act {ε : Type} (action : Action) : Attempt ε action.Answer := ExceptT.lift (Task.perform action)

/-- Goes on with what was found, or fails. -/
def settle {ε δ α : Type} (cause : δ → ε) : Except δ α → Attempt ε α
  | .ok a => pure a
  | .error e => throw (cause e)

/-- A call of the store. -/
def call {ε : Type} (cause : Store.StoreError → ε) (c : Store.Call) : Attempt ε c.Result := do
  settle cause (← act (.store c))

end CodeIndex.Index
