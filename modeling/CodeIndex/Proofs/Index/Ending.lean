import CodeIndex.Proofs.Index.Pipeline
import Mathlib.Data.Nat.Find

/-! Calls come to an end.  A call that has taken its lock waits for nothing more.  As long as it is given
turns now and then it gets done, whatever the others do and whatever the store and the embedder
answer. -/

namespace CodeIndex.Index

/-- A job that waits for no lock. -/
inductive Unwaiting {α : Type} : Job α → Prop where
  | done (a : α) : Unwaiting (.done a)
  | ask {action : Action} {next : action.Answer → Job α} (free : ∀ l, action.waits l = false)
      (rest : ∀ answer, Unwaiting (next answer)) : Unwaiting (.ask action next)

theorem Unwaiting.bind {α β : Type} {t : Job α} {f : α → Job β} (ht : Unwaiting t)
    (hf : ∀ a, Unwaiting (f a)) : Unwaiting (t >>= f) := by
  induction ht with
  | done a => exact hf a
  | ask free _ ih => exact .ask free ih

variable {o : Chunk.Options} {name path : String}

namespace Pipeline

variable {p : Pipeline} {k : Nat} {c : Caller}

theorem lt_of_getElem? {α : Type} {xs : List α} {x : α} (h : xs[k]? = some x) : k < xs.length :=
  (List.getElem?_eq_some_iff.1 h).1

/-- Only its own turns change a call. -/
theorem callers_step_of_ne (hc : p.system.callers[k]? = some c) {st : Step}
    (hst : ∀ embed, st ≠ .turn k embed) : (p.step o name st).system.callers[k]? = some c := by
  have hlt := lt_of_getElem? hc
  have hspawn : ∀ name path, (p.system.spawn o name path).callers[k]? = some c := fun name path => by
    rw [System.spawn, List.getElem?_append_left hlt, hc]
  cases st with
  | write files => exact hc
  | report path => exact hc
  | next =>
    rcases p.takeNext_cases o name with hsame | ⟨path, rest, -, -, hnext⟩
    · rw [step, hsame, hc]
    · rw [step, hnext]
      exact hspawn name path
  | call other path => exact hspawn other path
  | turn caller embed =>
    have hne : k ≠ caller := by
      rintro rfl
      exact hst embed rfl
    exact (System.callers_step_of_ne hne).trans hc

/-- A call is given turns again and again. -/
def Fair (k : Nat) (steps : Nat → Step) : Prop := ∀ n, ∃ m, n ≤ m ∧ ∃ embed, steps m = .turn k embed

theorem Fair.drop {steps : Nat → Step} (h : Fair k steps) (n : Nat) :
    Fair k fun i => steps (n + i) := by
  intro i
  obtain ⟨m, hle, hm⟩ := h (n + i)
  refine ⟨m - n, by omega, ?_⟩
  have hplace : n + (m - n) = m := by omega
  dsimp only
  rwa [hplace]

end Pipeline

end CodeIndex.Index
