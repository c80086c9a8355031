import CodeIndex.Index.World

/-! Carrying out jobs.  A job that consists of two is carried out by carrying out the first and then,
in the world that this leaves, the second; a job that may fail stops at its first failure. -/

namespace CodeIndex.Index

open CodeIndex.Embedding (EmbedError)

theorem Task.run_andThen {Action : Type} {Answer : Action → Type} {α β : Type} {m : Type → Type}
    [Monad m] [LawfulMonad m] (carryOut : (action : Action) → m (Answer action))
    (t : Task Action Answer α) (f : α → Task Action Answer β) :
    (t.andThen f).run carryOut = t.run carryOut >>= fun a => (f a).run carryOut := by
  induction t with
  | done a => simp [Task.andThen, Task.run]
  | ask action next ih => simp [Task.andThen, Task.run, ih]

namespace World

variable {σ α β ε : Type} {w : World σ}

@[simp] theorem finish_done (a : α) : finish (.done a) w = (a, w) := rfl

@[simp] theorem finish_ask (action : Action) (next : action.Answer → Job α) :
    finish (.ask action next) w =
      finish (next (carryOut action w).1) (carryOut action w).2 := rfl

@[simp] theorem finish_perform (action : Action) :
    finish (Task.perform action : Job action.Answer) w = carryOut action w := rfl

@[simp] theorem finish_bind (t : Job α) (f : α → Job β) :
    finish (t >>= f) w = finish (f (finish t w).1) (finish t w).2 :=
  congrFun (Task.run_andThen carryOut t f) w

@[simp] theorem attempt_pure (a : α) : attempt (pure a : Attempt ε α) w = (.ok a, w) := rfl

@[simp] theorem attempt_throw (e : ε) : attempt (throw e : Attempt ε α) w = (.error e, w) := rfl

@[simp] theorem attempt_act (action : Action) :
    attempt (act action : Attempt ε action.Answer) w =
      (.ok (carryOut action w).1, (carryOut action w).2) := rfl

@[simp] theorem attempt_bind (t : Attempt ε α) (f : α → Attempt ε β) :
    attempt (t >>= f) w =
      match attempt t w with
      | (.ok a, after) => attempt (f a) after
      | (.error e, after) => (.error e, after) := by
  have hbind : attempt (t >>= f) w = finish (t.run >>= ExceptT.bindCont f) w := rfl
  rw [hbind, finish_bind]
  unfold attempt
  obtain ⟨outcome, after⟩ := finish t.run w
  cases outcome <;> rfl

@[simp] theorem mapError_ok {δ : Type} (cause : δ → ε) (a : α) :
    (Except.ok a : Except δ α).mapError cause = .ok a := rfl

@[simp] theorem mapError_error {δ : Type} (cause : δ → ε) (e : δ) :
    (Except.error e : Except δ α).mapError cause = .error (cause e) := rfl

@[simp] theorem attempt_settle {δ : Type} (cause : δ → ε) (found : Except δ α) :
    attempt (settle cause found) w = (found.mapError cause, w) := by
  cases found <;> rfl

@[simp] theorem attempt_call (cause : Store.StoreError → ε) (c : Store.Call) :
    attempt (call cause c) w =
      ((w.services.store w.state c).1.mapError cause,
        { w with state := (w.services.store w.state c).2 }) := by
  rw [call, attempt_bind, attempt_act]
  exact attempt_settle cause _

end World

end CodeIndex.Index
