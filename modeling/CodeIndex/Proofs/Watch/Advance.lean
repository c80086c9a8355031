import CodeIndex.Proofs.Watch.Run

/-! The program's own calls and movements of the clock are runs.  When the clock moves, all that is
due on the way is done: the bound on the steps that are left is one. -/

namespace CodeIndex.Watch

/-- What is done to a watcher from outside. -/
inductive Action where
  | connect
  | destroy
  | drop
  | advance (ms : Nat)
  deriving DecidableEq, Repr

namespace Watcher

variable {w w' : Watcher} {l : Loop} {t limit : Nat}

def perform (w : Watcher) : Action → Watcher
  | .connect => w.connect
  | .destroy => w.destroy
  | .drop => w.drop
  | .advance ms => w.advance ms

/-! ### The steps that are left -/

theorem work_takeUp (hl : l ∈ w.loops) : (w.takeUp t l).work + l.phase.work = w.work := by
  have htotal : Numeric.total (fun l : Loop => l.phase.work) w.loops =
      Numeric.total (fun l : Loop => l.phase.work) (l :: w.loops.erase l) :=
    (List.perm_cons_erase hl).foldl_eq' (fun _ _ _ _ _ => by omega) 0
  rw [Numeric.total_cons] at htotal
  simp only [work, takeUp, htotal]
  omega

theorem work_resume (w : Watcher) (id : Nat) (phase : Phase) :
    (w.resume id phase).work = w.work + phase.work := by
  simp only [work, resume, Numeric.total_append, Numeric.total_cons, Numeric.total_nil]
  omega

theorem work_dispatch (w : Watcher) (text : String) : (w.dispatch text).work = w.work := by
  unfold dispatch
  split <;> try split
  all_goals rfl

theorem work_sessionEnded_le (w : Watcher) (id : Nat) : (w.sessionEnded id).work ≤ w.work + 2 := by
  unfold sessionEnded enter?
  by_cases hstate : w.state = .destroyed
  · simp [hstate]
  · simp only [hstate, if_false]
    split
    · exact Nat.le_add_right _ _
    · rw [work_resume]
      exact Nat.le_refl _

theorem work_sessionOpened_le (w : Watcher) (id : Nat) (phase : Phase) :
    (w.sessionOpened id phase).work ≤ w.work + phase.work := by
  unfold sessionOpened enter?
  by_cases hstate : w.state = .destroyed
  · simp [hstate]
  · simp only [hstate, if_false, work_resume]
    exact Nat.le_refl _

theorem work_attempt_le (w : Watcher) (id : Nat) : (w.attempt id).work ≤ w.work := by
  unfold attempt enter?
  by_cases hstate : w.state = .destroyed
  · simp [hstate]
  · simp only [hstate, if_false]
    cases hsessions : w.sessions with
    | nil =>
      refine Nat.le_trans (work_sessionOpened_le ..) ?_
      simp [work, hsessions, Phase.work]
    | cons s rest =>
      rw [work_resume]
      simp only [work, hsessions, Numeric.total_cons, Phase.work]
      omega

/-- A loop that goes on has less to do afterwards. -/
theorem work_goOn_lt (w : Watcher) (hwake : l.phase.wake? = some t) :
    (w.goOn l).work < w.work + l.phase.work := by
  obtain ⟨id, phase⟩ := l
  have hattempt := w.work_attempt_le id
  have hended := w.work_sessionEnded_le id
  cases phase with
  | starting => simp only [goOn, Phase.work]; omega
  | backingOff => simp only [goOn, Phase.work]; omega
  | idle => cases hwake
  | opening _ s =>
    have hopened := w.work_sessionOpened_le id (.reading w.now s.items s.hangs)
    simp only [Phase.work] at hopened
    simp only [goOn, Phase.work]
    split <;> omega
  | reading _ items hangs =>
    match items with
    | [] =>
      simp only [goOn]
      split
      · rw [work_resume]; simp only [Phase.work]; omega
      · simp only [Phase.work]; omega
    | .wait ms :: rest => simp only [goOn, work_resume, Phase.work, List.length_cons]; omega
    | .frame text :: rest =>
      simp only [goOn, work_resume, work_dispatch, Phase.work, List.length_cons]; omega
    | .failure :: rest => simp only [goOn, Phase.work, List.length_cons]; omega

theorem work_pos_of_wake? {phase : Phase} (hwake : phase.wake? = some t) : 0 < phase.work := by
  cases phase with
  | idle => cases hwake
  | _ => simp [Phase.work]

theorem work_next?_lt (next : w.next? limit = some w') : w'.work < w.work := by
  cases due : w.due? with
  | none => rw [next?, due] at next; cases next
  | some first =>
    obtain ⟨t, l⟩ := first
    obtain ⟨hl, hwake, -⟩ := mem_of_due? due
    have htaken := work_takeUp (t := t) hl
    have hgone := (w.takeUp t l).work_goOn_lt hwake
    have hpos := work_pos_of_wake? hwake
    rw [next?_of_due? due] at next
    split at next
    · cases next
      unfold step
      split <;> omega
    · cases next

/-- As many steps as the bound says are enough. -/
theorem next?_runSteps (limit count : Nat) (w : Watcher) (hcount : w.work ≤ count) :
    (runSteps limit count w).next? limit = none := by
  induction count generalizing w with
  | zero =>
    rw [runSteps]
    cases next : w.next? limit with
    | none => rfl
    | some w' => have := work_next?_lt next; omega
  | succ count ih =>
    rw [runSteps]
    cases next : w.next? limit with
    | none => exact next
    | some w' => exact ih w' (by have := work_next?_lt next; omega)

/-! ### The clock stands still while a loop goes on -/

@[simp] theorem now_resume (w : Watcher) (id : Nat) (phase : Phase) :
    (w.resume id phase).now = w.now := rfl

@[simp] theorem now_dispatch (w : Watcher) (text : String) : (w.dispatch text).now = w.now := by
  unfold dispatch
  split <;> try split
  all_goals rfl

@[simp] theorem now_sessionEnded (w : Watcher) (id : Nat) : (w.sessionEnded id).now = w.now := by
  unfold sessionEnded enter?
  by_cases hstate : w.state = .destroyed
  · simp [hstate]
  · simp only [hstate, if_false]
    split <;> rfl

@[simp] theorem now_sessionOpened (w : Watcher) (id : Nat) (phase : Phase) :
    (w.sessionOpened id phase).now = w.now := by
  unfold sessionOpened enter?
  by_cases hstate : w.state = .destroyed <;> simp [hstate]

@[simp] theorem now_attempt (w : Watcher) (id : Nat) : (w.attempt id).now = w.now := by
  unfold attempt enter?
  by_cases hstate : w.state = .destroyed
  · simp [hstate]
  · cases hsessions : w.sessions <;> simp [hstate]

@[simp] theorem now_goOn (w : Watcher) (l : Loop) : (w.goOn l).now = w.now := by
  unfold goOn
  split <;> try split
  all_goals simp

theorem now_next?_le (next : w.next? limit = some w') : w'.now ≤ limit := by
  cases due : w.due? with
  | none => rw [next?, due] at next; cases next
  | some first =>
    rw [next?_of_due? due] at next
    split at next
    · next hle =>
      cases next
      unfold step
      split
      · exact hle
      · exact Nat.le_trans (Nat.le_of_eq (now_goOn ..)) hle
    · cases next

theorem now_runSteps_le (count : Nat) (w : Watcher) (le : w.now ≤ limit) :
    (runSteps limit count w).now ≤ limit := by
  induction count generalizing w with
  | zero => exact le
  | succ count ih =>
    rw [runSteps]
    cases next : w.next? limit with
    | none => exact le
    | some w' => exact ih w' (now_next?_le next)

end Watcher

open Watcher

variable {may : Watcher → Prop} {w w' : Watcher} {h : List Note} {limit : Nat}

/-! ### Runs -/

/-- A step of the program is one move. -/
theorem Move.of_next? (may : Watcher → Prop) (next : w.next? limit = some w') :
    ∃ notes, Move may w notes w' ∧ (∀ n ∈ notes, n.isCall = false) := by
  cases due : w.due? with
  | none => rw [next?, due] at next; cases next
  | some first =>
    obtain ⟨t, l⟩ := first
    rw [next?_of_due? due] at next
    split at next <;> cases next
    cases hcancelled : w.cancelled with
    | true =>
      rw [step, if_pos (show (w.takeUp t l).cancelled = true from hcancelled)]
      exact ⟨[], .halt due hcancelled, by simp⟩
    | false =>
      rw [step, if_neg (by simp [takeUp, hcancelled])]
      exact ⟨_, .turn due, fun n => isCall_of_mem_noted⟩

theorem Run.of_runSteps (may : Watcher → Prop) (limit count : Nat) (w : Watcher) :
    ∃ notes, Run may w notes (runSteps limit count w) ∧ ∀ n ∈ notes, n.isCall = false := by
  induction count generalizing w with
  | zero => exact ⟨[], .refl, by simp⟩
  | succ count ih =>
    rw [runSteps]
    cases next : w.next? limit with
    | none => exact ⟨[], .refl, by simp⟩
    | some w' =>
      obtain ⟨first, move, hfirst⟩ := Move.of_next? may next
      obtain ⟨rest, run, hrest⟩ := ih w'
      refine ⟨first ++ rest, (Run.of_move move).trans run, fun n hn => ?_⟩
      exact (List.mem_append.1 hn).elim (hfirst n) (hrest n)

/-- A movement of the clock is a run without calls, and nothing is due at its end. -/
theorem Run.of_advance (may : Watcher → Prop) (w : Watcher) (ms : Nat) :
    ∃ notes, Run may w notes (w.advance ms) ∧ (∀ n ∈ notes, n.isCall = false) ∧
      (w.advance ms).Settled ∧ (w.advance ms).now = w.now + ms := by
  obtain ⟨notes, run, hnotes⟩ := Run.of_runSteps may (w.now + ms) w.work w
  have idle := next?_runSteps (w.now + ms) w.work w (Nat.le_refl _)
  have le := now_runSteps_le w.work w (Nat.le_add_right w.now ms)
  refine ⟨notes ++ [], run.step (.pass idle le), by simpa using hnotes, ?_, rfl⟩
  exact fun l hl t hwake => lt_of_next?_eq_none idle le l hl t hwake

theorem Watcher.Rested.of_sublist {w' : Watcher} (rested : w.Rested) (hnow : w'.now = w.now)
    (hloops : ∀ l ∈ w'.loops, l ∈ w.loops ∨ l.phase = .starting) : w'.Rested := by
  intro l hl t hwake
  rw [hnow]
  exact (hloops l hl).elim (rested l · t hwake) .inl

/-- What is done from outside while nothing is due is a run, and nothing is due afterwards. -/
theorem Run.of_perform (hmay : ∀ w, Rested w → may w) (rested : w.Rested) (action : Action) :
    ∃ notes, Run may w notes (w.perform action) ∧ (w.perform action).Rested := by
  have habort : ∀ l ∈ w.abortCurrent.loops, l ∈ w.loops := fun l hl => (List.mem_filter.1 hl).1
  cases action with
  | connect =>
    refine ⟨_, .of_move (.connect (hmay w rested)), ?_⟩
    simp only [perform, connect]
    split
    · refine rested.of_sublist rfl fun l hl => ?_
      rcases List.mem_append.1 hl with hl | hl
      · exact .inl (habort l hl)
      · exact .inr (by rw [List.mem_singleton.1 hl])
    · exact rested
  | destroy =>
    refine ⟨_, .of_move (.destroy (hmay w rested)), ?_⟩
    simp only [perform, destroy]
    split
    · exact rested
    · exact rested.of_sublist rfl fun l hl => .inl (habort l hl)
  | drop =>
    exact ⟨_, .of_move (.drop (hmay w rested)), rested.of_sublist rfl fun l hl => .inl hl⟩
  | advance ms =>
    obtain ⟨notes, run, -, settled, -⟩ := Run.of_advance may w ms
    exact ⟨notes, run, settled.rested⟩

/-- Calls and movements of the clock, one after another, are a run. -/
theorem Run.of_performAll (hmay : ∀ w, Rested w → may w) (rested : w.Rested)
    (actions : List Action) :
    ∃ notes, Run may w notes (actions.foldl perform w) ∧ (actions.foldl perform w).Rested := by
  induction actions generalizing w with
  | nil => exact ⟨[], .refl, rested⟩
  | cons action rest ih =>
    obtain ⟨first, run, rested⟩ := Run.of_perform hmay rested action
    obtain ⟨more, later, rested⟩ := ih rested
    exact ⟨first ++ more, run.trans later, rested⟩

end CodeIndex.Watch
