/-! Locks for files: those who work on the same file of the same collection share a lock.  A lock is
forgotten when a lock is asked for and nobody keeps this one. -/

namespace CodeIndex.Index

/-- A lock has a number of its own. -/
abbrev LockId := Nat

/-- What a lock is for: a collection and a path, with a zero character between. -/
def lockKey (collection path : String) : String := collection ++ "\x00" ++ path

/-- The locks that are known, how many keep each, and which are held. -/
structure Locks where
  entries : List (String × LockId) := []
  /-- A lock is listed once for each who keeps it. -/
  keepers : List LockId := []
  held : List LockId := []
  next : LockId := 0
  deriving DecidableEq, Repr

namespace Locks

/-- Leaves out the locks that nobody keeps. -/
def prune (l : Locks) : Locks :=
  { l with entries := l.entries.filter fun e => l.keepers.contains e.2 }

/-- The lock of a file, for one more to keep; a new one if there is none. -/
def lockFor (l : Locks) (key : String) : LockId × Locks :=
  let l := l.prune
  match l.entries.lookup key with
  | some id => (id, { l with keepers := id :: l.keepers })
  | none =>
    (l.next, { l with
      entries := (key, l.next) :: l.entries, keepers := l.next :: l.keepers, next := l.next + 1 })

def isFree (l : Locks) (id : LockId) : Bool := !l.held.contains id

def acquire (l : Locks) (id : LockId) : Locks := { l with held := id :: l.held }

def release (l : Locks) (id : LockId) : Locks := { l with held := l.held.erase id }

/-- One less keeps a lock. -/
def forget (l : Locks) (id : LockId) : Locks := { l with keepers := l.keepers.erase id }

end Locks

end CodeIndex.Index
