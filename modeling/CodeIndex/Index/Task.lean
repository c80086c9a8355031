/-! Tasks: what is to be done, as a series of actions each of which waits for its answer.  A task
says nothing of how actions are carried out, so that the steps of several tasks can be mixed. -/

namespace CodeIndex.Index

/-- A task that gives an `α`.  It is done, or it asks for an action and goes on with the answer. -/
inductive Task (Action : Type) (Answer : Action → Type) (α : Type) : Type where
  | done (a : α)
  | ask (action : Action) (next : Answer action → Task Action Answer α)

namespace Task

variable {Action : Type} {Answer : Action → Type} {α β : Type}

/-- One task and then the other. -/
def andThen : Task Action Answer α → (α → Task Action Answer β) → Task Action Answer β
  | done a, f => f a
  | ask action next, f => ask action fun answer => (next answer).andThen f

instance : Monad (Task Action Answer) where
  pure := done
  bind := andThen

def perform (action : Action) : Task Action Answer (Answer action) := ask action done

def run {m : Type → Type} [Monad m] (carryOut : (action : Action) → m (Answer action)) :
    Task Action Answer α → m α
  | done a => pure a
  | ask action next => do (next (← carryOut action)).run carryOut

end Task

end CodeIndex.Index
