import CodeIndex.Proofs.Index.Clients
import CodeIndex.Proofs.Index.Tracking

/-! Calls that bring files up to date are clients of the locks: what they do with the locks of their
files is what clients do, whatever else they do in between.  No lock is known for long that no call
under way has asked for. -/

namespace CodeIndex.Index

open Store (Memory)

/-- The action has nothing to do with locks. -/
def Action.isOther : Action → Bool
  | .obtainLock .. => false
  | .acquire _ => false
  | .release _ => false
  | .forget _ => false
  | _ => true

theorem World.locks_carryOut_of_isOther {σ : Type} {action : Action} (h : action.isOther = true)
    (w : World σ) : (World.carryOut action w).2.locks = w.locks := by
  cases action with
  | obtainLock collection path => cases h
  | acquire lock => cases h
  | release lock => cases h
  | forget lock => cases h
  | _ => rfl

/-- What a job does with locks from a stage on is what a client does with the lock of a file. -/
inductive Uses {α : Type} (slot : String × String) : Clients.Stage → Job α → Prop where
  | ask {next : LockId → Job α} (rest : ∀ lock, Uses slot (.waiting lock) (next lock)) :
    Uses slot .outside (.ask (.obtainLock slot.1 slot.2) next)
  | acquire {lock : LockId} {next : Unit → Job α} (rest : Uses slot (.inside lock) (next ())) :
    Uses slot (.waiting lock) (.ask (.acquire lock) next)
  | other {lock : LockId} {action : Action} {next : action.Answer → Job α}
    (h : action.isOther = true) (rest : ∀ answer, Uses slot (.inside lock) (next answer)) :
    Uses slot (.inside lock) (.ask action next)
  | release {lock : LockId} {next : Unit → Job α} (rest : Uses slot (.leaving lock) (next ())) :
    Uses slot (.inside lock) (.ask (.release lock) next)
  | forget {lock : LockId} {next : Unit → Job α} (rest : Uses slot .gone (next ())) :
    Uses slot (.leaving lock) (.ask (.forget lock) next)
  | done (a : α) : Uses slot .gone (.done a)

namespace Uses

variable {o : Chunk.Options} {slot : String × String} {lock : LockId}

theorem closing (outcome : Except IndexError FileReport) :
    Uses slot (.inside lock) (Phase.closing lock outcome) :=
  .release (.forget (.done outcome))

theorem isOther_of_pending {name path : String} {pr : Progress} {action : Action}
    {next : action.Answer → Progress} (h : pr.pending o name path = some ⟨action, next⟩) :
    action.isOther = true := by
  cases pr <;> cases h <;> rfl

/-- From each of its stages on, a replacement leaves the locks alone. -/
theorem replacement (pr : Progress) :
    Uses slot (.inside lock) ((pr.job o slot.1 slot.2).run >>= Phase.closing lock) := by
  generalize hjob : (pr.job o slot.1 slot.2).run = job
  induction job generalizing pr with
  | done outcome => exact closing outcome
  | ask action next ih =>
    cases hpending : pr.pending o slot.1 slot.2 with
    | none =>
      cases pr with
      | finished outcome => cases hjob
      | _ => cases hpending
    | some pending =>
      obtain ⟨action, after⟩ := pending
      rw [Progress.job_of_pending hpending] at hjob
      cases hjob
      exact .other (isOther_of_pending hpending) fun answer => ih answer (after answer) rfl

theorem reconcileFile (o : Chunk.Options) (slot : String × String) :
    Uses slot .outside (reconcileFile o slot.1 slot.2) :=
  .ask fun _ => .acquire (replacement .check)

end Uses

namespace System

/-- Calls as clients of the locks: the stages tell what the calls still do with them. -/
structure Served (slot : Clients.Slots) (s : System) (u : Clients) : Prop where
  locks : u.locks = s.world.locks
  uses : ∀ k c, s.callers[k]? = some c → Uses (slot k) (u.stage k) c.rest
  outside : ∀ k, s.callers[k]? = none → u.stage k = .outside

namespace Served

variable {slot : Clients.Slots} {s : System} {u : Clients} {k : Nat} {c : Caller}

theorem start (o : Chunk.Options) {w : World Memory} (hw : w.locks = {})
    (calls : List (String × String)) :
    Served (fun k => calls.getD k ("", "")) (.start o w calls) {} where
  locks := hw.symm
  uses k c hc := by
    simp only [System.start, List.getElem?_map, Option.map_eq_some_iff] at hc
    obtain ⟨call, hcall, rfl⟩ := hc
    dsimp only
    rw [List.getD_eq_getElem?_getD, hcall]
    exact Uses.reconcileFile o call
  outside _ _ := rfl

/-- A call goes on, and the client that it is with it. -/
theorem moved (h : Served slot s u) (hc : s.callers[k]? = some c) {c' : Caller} {s' : System}
    {stage : Clients.Stage} (hcallers : s'.callers = s.callers.set k c')
    (huses : Uses (slot k) stage c'.rest) : Served slot s' (u.put k s'.world.locks stage) where
  locks := rfl
  uses j d hd := by
    rw [hcallers] at hd
    by_cases hjk : j = k
    · subst hjk
      rw [List.getElem?_set_self (List.getElem?_eq_some_iff.1 hc).1] at hd
      obtain rfl := Option.some.inj hd
      rw [Clients.stage_put_self]
      exact huses
    · rw [List.getElem?_set_ne (Ne.symm hjk)] at hd
      rw [Clients.stage_put_of_ne hjk]
      exact h.uses j d hd
  outside j hj := by
    rw [hcallers, List.getElem?_eq_none_iff, List.length_set, ← List.getElem?_eq_none_iff] at hj
    have hjk : j ≠ k := by
      rintro rfl
      rw [hc] at hj
      cases hj
    rw [Clients.stage_put_of_ne hjk]
    exact h.outside j hj

/-- With the step of a call, its client makes the same step, or none while the call is about other
things. -/
theorem step (h : Served slot s u) (turn : Turn) :
    ∃ moves, Served slot (s.step turn) (u.run slot moves) := by
  rcases s.step_cases turn with hsame | ⟨c, action, next, hc, hrest, hwaits, hstep⟩
  · rw [hsame]
    exact ⟨[], h⟩
  · have huses := h.uses turn.caller c hc
    rw [hrest] at huses
    rw [hstep]
    cases hstage : u.stage turn.caller with
    | outside =>
      rw [hstage] at huses
      cases huses with
      | ask rest =>
        refine ⟨[.advance turn.caller], ?_⟩
        show Served slot _ (u.advance slot turn.caller)
        rw [Clients.advance, hstage, h.locks]
        exact h.moved hc rfl (rest _)
    | waiting lock =>
      rw [hstage] at huses
      cases huses with
      | acquire rest =>
        have hfree : s.world.locks.isFree lock = true := by simpa [Action.waits] using hwaits
        refine ⟨[.advance turn.caller], ?_⟩
        show Served slot _ (u.advance slot turn.caller)
        simp only [Clients.advance, hstage, h.locks, hfree, if_true]
        exact h.moved hc rfl rest
    | inside lock =>
      rw [hstage] at huses
      cases huses with
      | other hother rest =>
        refine ⟨[], ?_⟩
        have hlocks := World.locks_carryOut_of_isOther hother (s.around turn)
        have hstay : u = u.put turn.caller (World.carryOut action (s.around turn)).2.locks
            (.inside lock) := by
          rw [hlocks, ← hstage, Clients.put, Function.update_eq_self]
          exact congrArg (Clients.mk · u.stage) h.locks
        show Served slot _ u
        rw [hstay]
        exact h.moved hc rfl (rest _)
      | release rest =>
        refine ⟨[.advance turn.caller], ?_⟩
        show Served slot _ (u.advance slot turn.caller)
        rw [Clients.advance, hstage, h.locks]
        exact h.moved hc rfl rest
    | leaving lock =>
      rw [hstage] at huses
      cases huses with
      | forget rest =>
        refine ⟨[.advance turn.caller], ?_⟩
        show Served slot _ (u.advance slot turn.caller)
        rw [Clients.advance, hstage, h.locks]
        exact h.moved hc rfl rest
    | gone =>
      rw [hstage] at huses
      cases huses

theorem run (h : Served slot s u) (turns : List Turn) :
    ∃ moves, Served slot (s.run turns) (u.run slot moves) := by
  induction turns generalizing s u with
  | nil => exact ⟨[], h⟩
  | cons turn turns ih =>
    obtain ⟨first, hfirst⟩ := h.step turn
    obtain ⟨rest, hrest⟩ := ih hfirst
    exact ⟨first ++ rest, u.run_append slot first rest ▸ hrest⟩

/-- Only a call that is under way keeps a lock. -/
theorem exists_caller (h : Served slot s u) {lock : LockId} (hk : u.kept k = some lock) :
    ∃ c, s.callers[k]? = some c ∧ c.isDone = false := by
  cases hc : s.callers[k]? with
  | none =>
    rw [Clients.kept, h.outside k hc] at hk
    cases hk
  | some c =>
    refine ⟨c, rfl, ?_⟩
    have huses := h.uses k c hc
    rw [Caller.isDone]
    cases hrest : c.rest with
    | ask action next => rfl
    | done outcome =>
      rw [hrest] at huses
      rw [Clients.kept] at hk
      generalize u.stage k = stage at huses hk
      cases huses
      cases hk

end Served

/-- Calls that bring files up to date are clients of the locks, whatever turns they take. -/
theorem exists_moves (o : Chunk.Options) {w : World Memory} (hw : w.locks = {})
    (calls : List (String × String)) (turns : List Turn) :
    ∃ moves, Served (fun k => calls.getD k ("", "")) ((System.start o w calls).run turns)
      (Clients.run (fun k => calls.getD k ("", "")) {} moves) :=
  (Served.start o hw calls).run turns

/-- When a lock is asked for while calls are under way, each of the other locks that are known then
is that of a file on which a call is at work. -/
theorem exists_caller_of_entry (o : Chunk.Options) {w : World Memory} (hw : w.locks = {})
    (calls : List (String × String)) (turns : List Turn) {s : System}
    (hs : (System.start o w calls).run turns = s) {name : String} {e : String × LockId}
    (he : e ∈ (s.world.locks.lockFor name).2.entries)
    (hne : e ≠ (name, (s.world.locks.lockFor name).1)) :
    ∃ c ∈ s.callers, c.isDone = false ∧ lockKey c.name c.path = e.1 := by
  obtain ⟨moves, hserved⟩ := exists_moves o hw calls turns
  rw [hs] at hserved
  rw [← hserved.locks] at he hne
  obtain ⟨k, hkey, hk⟩ := ((Clients.Sound.init _).run moves).exists_client he hne
  obtain ⟨c, hc, hdone⟩ := hserved.exists_caller hk
  refine ⟨c, List.mem_of_getElem? hc, hdone, ?_⟩
  have hslot : c.slot = calls.getD k ("", "") := by
    have hslots : s.callers.map Caller.slot = calls := by
      rw [← hs, slots_run, start, List.map_map]
      exact List.map_id calls
    rw [List.getD_eq_getElem?_getD, ← hslots, List.getElem?_map, hc]
    rfl
  rw [← hkey, Clients.key, ← hslot]
  rfl

end System

end CodeIndex.Index
