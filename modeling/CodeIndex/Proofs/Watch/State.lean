import CodeIndex.Proofs.Watch.Advance
import CodeIndex.Proofs.Watch.Loop

/-! What a watcher shows, compared with what is noted of its run: the state follows the phase of
the one loop, and the count of attempts is the number of sessions that ended since one opened or a
loop was started. -/

namespace CodeIndex.Watch

/-! ### What is noted and the watcher -/

section

variable {h : List Note} {n : Note}

@[simp] theorem endedSince_append_restart (hn : n.restarts = true) : endedSince (h ++ [n]) = 0 := by
  simp [endedSince, hn]

@[simp] theorem endedSince_append_end (hn : n.isEnd = true) :
    endedSince (h ++ [n]) = endedSince h + 1 := by
  cases n <;> simp [Note.isEnd] at hn
  simp [endedSince, Note.restarts, Note.isEnd]

@[simp] theorem endedSince_append_other (hrestart : n.restarts = false) (hend : n.isEnd = false) :
    endedSince (h ++ [n]) = endedSince h := by
  simp [endedSince, hrestart, hend]

end

/-- The notes account for what the watcher shows. -/
structure Recorded (history : List Note) (w : Watcher) : Prop where
  attempts_eq : w.attempts = endedSince history
  cancelled_iff : w.cancelled = true ↔ ∃ n ∈ history, n.isStop = true
  destroyed_iff : w.state = .destroyed ↔ ∃ t, .destroyed t ∈ history

open Watcher

variable {may : Watcher → Prop} {w w' : Watcher} {l : Loop} {h notes : List Note}
  {config : Config} {script : List Session}

namespace Recorded

theorem start (config : Config) (script : List Session) : Recorded [] (start config script) where
  attempts_eq := rfl
  cancelled_iff := by simp [Watcher.start]
  destroyed_iff := by simp [Watcher.start]

/-- What is no call from outside neither cancels nor destroys. -/
theorem quiet (recorded : Recorded h w) (attempts_eq : w'.attempts = endedSince (h ++ notes))
    (hcalls : ∀ n ∈ notes, n.isCall = false) (hcancelled : w'.cancelled = w.cancelled)
    (hdestroyed : w'.state = .destroyed ↔ w.state = .destroyed) : Recorded (h ++ notes) w' := by
  have hstop : ∀ n ∈ notes, n.isStop = false := by
    intro n hn
    have := hcalls n hn
    cases n <;> simp_all [Note.isCall, Note.isStop]
  have hkept : ∀ t, .destroyed t ∉ notes := fun t ht => by simpa [Note.isStop] using hstop _ ht
  refine ⟨attempts_eq, ?_, ?_⟩
  · have hnone : ¬∃ n ∈ notes, n.isStop = true := by simpa using hstop
    simp [hcancelled, recorded.cancelled_iff, or_and_right, exists_or, hnone]
  · simp [hdestroyed, recorded.destroyed_iff, hkept]

theorem attempts_turned (turned : Turned w l notes w') (attempts_eq : w.attempts = endedSince h) :
    w'.attempts = endedSince (h ++ notes) := by
  cases turned with
  | attempted => rw [endedSince_append_other rfl rfl]; exact attempts_eq
  | unanswered => simp [endedSince, Note.restarts]
  | opened => exact (endedSince_append_restart rfl).symm
  | read => rw [List.append_nil]; exact attempts_eq
  | backedOff => rw [endedSince_append_end rfl, ← attempts_eq]
  | gaveUp => rw [endedSince_append_end rfl, ← attempts_eq]

theorem move (recorded : Recorded h w) (sound : w.Sound) (move : Move may w notes w') :
    Recorded (h ++ notes) w' := by
  cases move with
  | connect =>
    unfold connect
    split
    · next hstate =>
      -- A disconnected watcher was not destroyed, so no note tells of that.
      have hnone := mt recorded.destroyed_iff.2 (by rw [hstate]; simp)
      refine ⟨(endedSince_append_restart rfl).symm, ?_, by simpa using hnone⟩
      simpa [Note.isStop, abortCurrent] using recorded.cancelled_iff
    · rwa [List.append_nil]
  | destroy =>
    unfold destroy
    split
    · rwa [List.append_nil]
    · refine ⟨?_, by simp [Note.isStop], by simp⟩
      rw [endedSince_append_other rfl rfl]
      exact recorded.attempts_eq
  | drop =>
    refine ⟨?_, by simp [Note.isStop, Watcher.drop], ?_⟩
    · rw [endedSince_append_other rfl rfl]
      exact recorded.attempts_eq
    · simpa [Watcher.drop] using recorded.destroyed_iff
  | turn due =>
    have turned := sound.turned due
    have carries := (sound.of_due? due).2.1
    refine recorded.quiet (attempts_turned turned recorded.attempts_eq)
      (fun n => isCall_of_mem_noted) turned.cancelled_eq ⟨fun hstate => ?_, fun hstate => ?_⟩
    · exact absurd hstate (turned.alive carries.alive)
    · exact absurd hstate carries.alive
  | halt due cancelled =>
    rw [List.append_nil]
    exact ⟨recorded.attempts_eq, recorded.cancelled_iff, recorded.destroyed_iff⟩
  | pass idle le =>
    rw [List.append_nil]
    exact ⟨recorded.attempts_eq, recorded.cancelled_iff, recorded.destroyed_iff⟩

end Recorded

/-- What holds after every run. -/
theorem Run.sound (run : Run may (start config script) h w) :
    w.Sound ∧ w.config = config ∧ Recorded h w := by
  suffices Recorded h w from
    ⟨((Sound.start config script).run run).1, ((Sound.start config script).run run).2, this⟩
  induction run with
  | refl => exact .start config script
  | step before last ih => exact ih.move ((Sound.start config script).run before).1 last

/-- The loops are cancelled if and only if a call is noted that does so. -/
theorem Run.cancelled_eq_false_iff (run : Run may (start config script) h w) :
    w.cancelled = false ↔ ∀ n ∈ h, n.isStop = false := by
  rw [← Bool.not_eq_true, run.sound.2.2.cancelled_iff]
  simp

/-- While the watcher is not dropped, only its destruction cancels the loops. -/
theorem Recorded.destroyed_of_cancelled (recorded : Recorded h w)
    (kept : ∀ t, .dropped t ∉ h) (cancelled : w.cancelled = true) : w.state = .destroyed := by
  obtain ⟨n, hn, hstop⟩ := recorded.cancelled_iff.1 cancelled
  cases n with
  | destroyed t => exact recorded.destroyed_iff.2 ⟨t, hn⟩
  | dropped t => exact absurd hn (kept t)
  | _ => cases hstop

/-- The state is that of the phase of the loop; without a loop the watcher is at rest for good or
until a call. -/
theorem Watcher.Sound.state_iff (sound : w.Sound)
    (kept : w.cancelled = true → w.state = .destroyed) :
    (w.state = .connecting ↔ ∃ l ∈ w.loops, l.phase.isConnecting = true) ∧
    (w.state = .connected ↔ ∃ l ∈ w.loops, l.phase.isConnected = true) ∧
    (w.state = .disconnected ↔ w.state ≠ .destroyed ∧
      (w.loops = [] ∨ ∃ l ∈ w.loops, l.phase.isBackingOff = true)) := by
  rcases sound.loops with hnone | ⟨l, hone, carries⟩
  · have hstate : w.state = .disconnected ∨ w.state = .destroyed := by
      cases hcancelled : w.cancelled with
      | true => exact .inr (kept hcancelled)
      | false => exact .inl (sound.resting hnone hcancelled)
    rcases hstate with hstate | hstate <;> simp [hnone, hstate]
  · have hstate := carries.state_eq
    cases hphase : l.phase <;>
      simp [hone, hstate, hphase, Phase.state, Phase.isConnecting, Phase.isConnected,
        Phase.isBackingOff]

theorem Watcher.Sound.length_loops_le (sound : w.Sound) : w.loops.length ≤ 1 := by
  rcases sound.loops with hnone | ⟨l, hone, -⟩
  · simp [hnone]
  · simp [hone]

/-- One loop at most is at work; the watcher is connecting while it has a loop that has not opened
its session and does not wait, connected while it has a loop that reads frames, and disconnected
otherwise, until it is destroyed.  The attempts are the sessions that ended since a call of
`connect` took effect or a session opened, and 32 bits hold their count. -/
theorem state_follows_loop (run : Run anyTime (start config script) h w)
    (kept : ∀ t, .dropped t ∉ h) (small : config.maxAttempts < 0xFFFFFFFF) :
    (w.loops.length ≤ 1 ∧ (w.loops.filter (·.phase.hasSocket)).length ≤ 1) ∧
    (w.state = .connecting ↔ ∃ l ∈ w.loops, l.phase.isConnecting = true) ∧
    (w.state = .connected ↔ ∃ l ∈ w.loops, l.phase.isConnected = true) ∧
    (w.state = .disconnected ↔ w.state ≠ .destroyed ∧
      (w.loops = [] ∨ ∃ l ∈ w.loops, l.phase.isBackingOff = true)) ∧
    (w.attempts = endedSince h ∧ w.attempts ≤ config.maxAttempts + 1 ∧
      w.attempts ≤ 0xFFFFFFFF) ∧
    (w.state = .connecting ∨ w.state = .connected → w.connect = w) := by
  obtain ⟨sound, rfl, recorded⟩ := run.sound
  have hbounded := sound.bounded
  have hlength := sound.length_loops_le
  have hfilter : (w.loops.filter (·.phase.hasSocket)).length ≤ w.loops.length :=
    List.length_filter_le ..
  obtain ⟨hconnecting, hconnected, hdisconnected⟩ :=
    sound.state_iff (recorded.destroyed_of_cancelled kept)
  have hconnect : w.state = .connecting ∨ w.state = .connected → w.connect = w := by
    rintro (hstate | hstate) <;> simp [connect, hstate]
  exact ⟨⟨hlength, by omega⟩, hconnecting, hconnected, hdisconnected,
    ⟨recorded.attempts_eq, hbounded, by omega⟩, hconnect⟩

/-- A call of `connect` while the loop waits for its second attempt. -/
theorem state_follows_loop_superseded :
    ∃ w, Run anyTime (start ⟨"ws://127.0.0.1:3001", 100000000, 3⟩ [{ refused := true }])
        [.called, .began 0, .ended 0, .called] w ∧
      w.loops = [⟨1, .starting⟩] ∧ w.state = .connecting ∧ w.attempts = 0 ∧ w.connect = w := by
  have called : Run anyTime (start ⟨"ws://127.0.0.1:3001", 100000000, 3⟩ [{ refused := true }])
    [.called] _ := .of_move (.connect trivial)
  have began : Run anyTime _ [.called, .began 0] _ :=
    called.step (.turn (t := 0) (l := ⟨0, .starting⟩) rfl)
  have ended : Run anyTime _ [.called, .began 0, .ended 0] _ :=
    began.step (.turn (t := 0) (l := ⟨0, .opening 0 { refused := true }⟩) rfl)
  have run : Run anyTime _ [.called, .began 0, .ended 0, .called] _ :=
    ended.step (.connect trivial)
  obtain ⟨-, hconnecting, -, -, ⟨hattempts, -⟩, hconnect⟩ :=
    state_follows_loop run (by simp) (by decide)
  have hstate := hconnecting.2 ⟨_, List.mem_singleton_self _, rfl⟩
  exact ⟨_, run, rfl, hstate, hattempts, hconnect (.inl hstate)⟩

end CodeIndex.Watch
