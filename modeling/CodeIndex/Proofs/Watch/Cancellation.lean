import CodeIndex.Proofs.Watch.State

/-! After the loops are cancelled no event is handed on, whichever way a loop goes that is taken up
then.  A watcher that was destroyed stays as it is. -/

namespace CodeIndex.Watch

open Watcher

variable {may : Watcher → Prop} {w w' : Watcher} {l : Loop} {h notes : List Note}
  {config : Config} {script : List Session}

/-! ### Cancelled loops -/

theorem Turned.delivered_of_cancelled (turned : Turned w l notes w')
    (cancelled : w.cancelled = true) : w'.delivered = w.delivered := by
  cases turned with
  | read => simp [accepted, cancelled]
  | _ => rfl

theorem Move.delivered_of_cancelled (move : Move may w notes w') (sound : w.Sound)
    (cancelled : w.cancelled = true) : w'.cancelled = true ∧ w'.delivered = w.delivered := by
  cases move with
  | connect => unfold Watcher.connect; split <;> exact ⟨cancelled, rfl⟩
  | destroy =>
    unfold Watcher.destroy
    split
    · exact ⟨cancelled, rfl⟩
    · exact ⟨rfl, rfl⟩
  | drop => exact ⟨rfl, rfl⟩
  | turn due =>
    have turned := sound.turned due
    exact ⟨turned.cancelled_eq.trans cancelled, turned.delivered_of_cancelled cancelled⟩
  | halt => exact ⟨cancelled, rfl⟩
  | pass => exact ⟨cancelled, rfl⟩

/-- What is cancelled stays so. -/
theorem Move.kept (move : Move may w notes w') (sound : w.Sound) (kept : w'.cancelled = false) :
    w.cancelled = false := by
  cases hcancelled : w.cancelled with
  | false => rfl
  | true => rw [(move.delivered_of_cancelled sound hcancelled).1] at kept; cases kept

theorem Run.delivered_of_cancelled (run : Run may w notes w') (sound : w.Sound)
    (cancelled : w.cancelled = true) : w'.cancelled = true ∧ w'.delivered = w.delivered := by
  induction run with
  | refl => exact ⟨cancelled, rfl⟩
  | step before last ih =>
    obtain ⟨hcancelled, hdelivered⟩ := last.delivered_of_cancelled (sound.run before).1 ih.1
    exact ⟨hcancelled, hdelivered.trans ih.2⟩

/-! ### Destroyed watchers -/

/-- The watcher was destroyed, and no loop of it is left. -/
structure Watcher.Gone (w : Watcher) : Prop where
  state_eq : w.state = .destroyed
  loops_eq : w.loops = []
  cancelled : w.cancelled = true

namespace Watcher

theorem Sound.gone_destroy (sound : w.Sound) : w.destroy.Gone := by
  unfold destroy
  split
  · next hstate =>
    refine ⟨hstate, ?_, sound.destroyed hstate⟩
    rcases sound.loops with hnone | ⟨l, -, carries⟩
    · exact hnone
    · exact absurd hstate carries.alive
  · exact ⟨rfl, sound.loops_abortCurrent, rfl⟩

namespace Gone

theorem connect_eq (gone : w.Gone) : w.connect = w := by simp [connect, gone.state_eq]

theorem destroy_eq (gone : w.Gone) : w.destroy = w := by simp [destroy, gone.state_eq]

theorem drop_eq (gone : w.Gone) : w.drop = w := by
  unfold drop
  rw [← gone.cancelled]

/-- Nothing but the clock moves on. -/
theorem move (gone : w.Gone) (move : Move may w notes w') : ∃ now, w' = { w with now } := by
  have hdue := due?_nil gone.loops_eq
  cases move with
  | connect => exact ⟨w.now, gone.connect_eq⟩
  | destroy => exact ⟨w.now, gone.destroy_eq⟩
  | drop => exact ⟨w.now, gone.drop_eq⟩
  | turn due => rw [hdue] at due; cases due
  | halt due => rw [hdue] at due; cases due
  | @pass limit => exact ⟨limit, rfl⟩

theorem run (gone : w.Gone) (run : Run may w notes w') : ∃ now, w' = { w with now } := by
  induction run with
  | refl => exact ⟨w.now, rfl⟩
  | step _ last ih =>
    obtain ⟨now, rfl⟩ := ih
    exact Gone.move (w := { w with now }) ⟨gone.state_eq, gone.loops_eq, gone.cancelled⟩ last

end Gone

end Watcher

/-- From the call of `destroy` on, whenever it comes, the watcher is destroyed, its count of
attempts stays, no attempt begins, no event is handed on, and further calls change nothing.  From its
drop on, no event is handed on. -/
theorem destroyed_for_good (run : Run anyTime (start config script) h w) :
    (∀ notes w', Run anyTime w.destroy notes w' →
      w'.state = .destroyed ∧ w'.attempts = w.attempts ∧ w'.connects = w.connects ∧
        w'.delivered = w.delivered ∧ w'.connect = w' ∧ w'.destroy = w') ∧
    ∀ notes w', Run anyTime w.drop notes w' → w'.delivered = w.delivered := by
  obtain ⟨sound, -, -⟩ := run.sound
  refine ⟨fun notes w' later => ?_, fun notes w' later => ?_⟩
  · have gone := sound.gone_destroy
    obtain ⟨now, rfl⟩ := gone.run later
    have gone' : Gone { w.destroy with now } := ⟨gone.state_eq, gone.loops_eq, gone.cancelled⟩
    have hsame : w.destroy.attempts = w.attempts ∧ w.destroy.connects = w.connects ∧
        w.destroy.delivered = w.delivered := by
      unfold destroy
      split <;> exact ⟨rfl, rfl, rfl⟩
    exact ⟨gone.state_eq, hsame.1, hsame.2.1, hsame.2.2, gone'.connect_eq, gone'.destroy_eq⟩
  · exact (later.delivered_of_cancelled sound.drop rfl).2

/-- A frame that tells of a change of a file. -/
def frameOf (path : String) : String :=
  "\x7b\"type\":\"file_changed\",\"filePath\":\"" ++ path ++ "\",\"timestamp\":1\x7d"

/-- The frame is ready when the call of `destroy` or the drop comes. -/
theorem destroyed_for_good_frame :
    ∃ w, Run anyTime
        (start ⟨"ws://127.0.0.1:3001", 100000000, 5⟩ [{ items := [.frame (frameOf "src/a.js")] }])
        [.called, .began 0, .opened 0 { items := [.frame (frameOf "src/a.js")] }] w ∧
      w.loops = [⟨0, .reading 0 [.frame (frameOf "src/a.js")] false⟩] ∧
      (accept? (frameOf "src/a.js")).isSome = true ∧
      (w.destroy.advance 1000).state = .destroyed ∧ (w.destroy.advance 1000).delivered = [] ∧
      (w.drop.advance 1000).delivered = [] := by
  have called : Run anyTime
      (start ⟨"ws://127.0.0.1:3001", 100000000, 5⟩ [{ items := [.frame (frameOf "src/a.js")] }])
      [.called] _ := .of_move (.connect trivial)
  have began : Run anyTime _ [.called, .began 0] _ :=
    called.step (.turn (t := 0) (l := ⟨0, .starting⟩) rfl)
  have run : Run anyTime _
      [.called, .began 0, .opened 0 { items := [.frame (frameOf "src/a.js")] }] _ :=
    began.step (.turn (t := 0)
      (l := ⟨0, .opening 0 { items := [.frame (frameOf "src/a.js")] }⟩) rfl)
  obtain ⟨hdestroy, hdrop⟩ := destroyed_for_good run
  obtain ⟨_, later, -⟩ := Run.of_advance anyTime (destroy _) 1000
  obtain ⟨_, dropped, -⟩ := Run.of_advance anyTime (drop _) 1000
  obtain ⟨hstate, -, -, hdelivered, -⟩ := hdestroy _ _ later
  exact ⟨_, run, rfl, rfl, hstate, hdelivered, hdrop _ _ dropped⟩

end CodeIndex.Watch
