import CodeIndex.Proofs.Watch.Retry

/-! When attempts to connect begin.  After the end of a session the next one begins when the delay
is over, or none begins when there is none left.  A far side that always refuses sees one attempt
more than a loop may repeat. -/

namespace CodeIndex.Watch

open Watcher

variable {may : Watcher → Prop} {w w' : Watcher} {l : Loop} {h notes : List Note}
  {config : Config} {script : List Session} {t at_ id begun deadline : Nat}

/-! ### A far side that refuses -/

/-- The far side refuses the next `n` attempts. -/
def Refuses (n : Nat) (sessions : List Session) : Prop :=
  n ≤ sessions.length ∧ ∀ s ∈ sessions.take n, s.refused = true

theorem Refuses.cons {n : Nat} {sessions : List Session} (refuses : Refuses (n + 1) sessions) :
    ∃ s rest, sessions = s :: rest ∧ s.refused = true ∧ Refuses n rest := by
  obtain ⟨hlength, hrefused⟩ := refuses
  cases sessions with
  | nil => simp at hlength
  | cons s rest =>
    refine ⟨s, rest, rfl, hrefused s (by simp), by simpa using hlength, fun s' hs' => ?_⟩
    exact hrefused s' (by simp [hs'])

/-- The time from the beginning of the `k`-th attempt in a row to the end of the last one, when
`left` more are made after it. -/
def patience (base : Nat) : Nat → Nat → List Session → Nat
  | _, _, [] => 0
  | 0, _, s :: _ => s.delay
  | left + 1, k, s :: rest =>
    s.delay + (clockTime (backoff base k) + patience base left (k + 1) rest)

theorem delay_le_patience (base left k : Nat) (s : Session) (rest : List Session) :
    s.delay ≤ patience base left k (s :: rest) := by
  cases left <;> simp [patience]

/-- A loop whose attempts are all refused, after so many of them, and the time at which it gives
up. -/
inductive Refused (deadline : Nat) (w : Watcher) : Nat → Prop where
  | waits {l : Loop} {t : Nat} (loops : w.loops = [l]) (attempts : l.phase.attempts = true)
      (wake : l.phase.wake? = some t) (left : w.attempts ≤ w.config.maxAttempts)
      (refuses : Refuses (w.config.maxAttempts - w.attempts + 1) w.sessions)
      (time : deadline = max w.now t + patience w.config.baseInterval
        (w.config.maxAttempts - w.attempts) (w.attempts + 1) w.sessions) :
      Refused deadline w w.attempts
  | asks {id t : Nat} {s : Session} (loops : w.loops = [⟨id, .opening t s⟩])
      (refused : s.refused = true) (left : w.attempts ≤ w.config.maxAttempts)
      (refuses : Refuses (w.config.maxAttempts - w.attempts) w.sessions)
      (time : deadline + s.delay = t + patience w.config.baseInterval
        (w.config.maxAttempts - w.attempts) (w.attempts + 1) (s :: w.sessions)) :
      Refused deadline w (w.attempts + 1)
  | gaveUp (loops : w.loops = []) : Refused deadline w (w.config.maxAttempts + 1)

namespace Refused

theorem le (refused : Refused deadline w begun) : begun ≤ w.config.maxAttempts + 1 := by
  cases refused with
  | waits _ _ _ left => omega
  | asks _ _ left => omega
  | gaveUp => exact Nat.le_refl _

/-- When the time is over, all attempts were made. -/
theorem eq_of_settled (refused : Refused deadline w begun) (settled : w.Settled)
    (hdeadline : deadline ≤ w.now) : begun = w.config.maxAttempts + 1 := by
  cases refused with
  | @waits l t loops _ wake _ _ time =>
    have := settled l (by simp [loops]) t wake
    omega
  | @asks id t s loops _ _ _ time =>
    have := settled _ (by rw [loops]; exact List.mem_singleton_self _) t rfl
    have := delay_le_patience w.config.baseInterval (w.config.maxAttempts - w.attempts)
      (w.attempts + 1) s w.sessions
    omega
  | gaveUp => rfl

theorem of_attempt {v : Watcher} (turned : Turned v l notes w') (attempts : l.phase.attempts = true)
    (left : v.attempts ≤ v.config.maxAttempts)
    (refuses : Refuses (v.config.maxAttempts - v.attempts + 1) v.sessions)
    (time : deadline = v.now + patience v.config.baseInterval
      (v.config.maxAttempts - v.attempts) (v.attempts + 1) v.sessions) :
    Refused deadline w' (v.attempts + 1) := by
  obtain ⟨s, rest, hsessions, hrefused, hrest⟩ := refuses.cons
  obtain ⟨id, phase⟩ := l
  cases turned with
  | attempted _ sessions =>
    obtain ⟨rfl, rfl⟩ := List.cons.inj (hsessions.symm.trans sessions)
    refine .asks rfl hrefused left hrest ?_
    dsimp only
    rw [time, hsessions]
    omega
  | unanswered _ sessions => rw [hsessions] at sessions; cases sessions
  | opened phase => cases phase; cases attempts
  | read reads => cases reads <;> cases attempts
  | backedOff ends => cases ends <;> cases attempts
  | gaveUp ends => cases ends <;> cases attempts

theorem of_answer {v : Watcher} {s : Session} (turned : Turned v l notes w')
    (phase : l.phase = .opening t s) (hrefused : s.refused = true)
    (left : v.attempts ≤ v.config.maxAttempts)
    (refuses : Refuses (v.config.maxAttempts - v.attempts) v.sessions)
    (time : deadline + s.delay = v.now + patience v.config.baseInterval
      (v.config.maxAttempts - v.attempts) (v.attempts + 1) (s :: v.sessions)) :
    Refused deadline w' (v.attempts + 1) ∧ begins notes = [] := by
  obtain ⟨id, _⟩ := l
  cases phase
  cases turned with
  | attempted attempts => cases attempts
  | unanswered attempts => cases attempts
  | opened phase taken => cases phase; rw [hrefused] at taken; cases taken
  | read reads => cases reads
  | backedOff _ hlt =>
    have hsucc :
        v.config.maxAttempts - v.attempts = v.config.maxAttempts - (v.attempts + 1) + 1 := by omega
    rw [hsucc] at refuses time
    refine ⟨.waits rfl rfl rfl hlt refuses ?_, rfl⟩
    simp only [patience] at time ⊢
    omega
  | gaveUp _ hle =>
    obtain hsame := Nat.le_antisymm left hle
    rw [hsame]
    exact ⟨.gaveUp rfl, rfl⟩

theorem turn (refused : Refused deadline w begun) (sound : w.Sound) (due : w.due? = some (t, l)) :
    Refused deadline ((w.takeUp t l).goOn l)
      (begun + (begins ((w.takeUp t l).noted l)).length) := by
  have turned := sound.turned due
  obtain ⟨hone, -, hwake⟩ := sound.of_due? due
  cases refused with
  | @waits l' t' loops attempts wake left refuses time =>
    obtain rfl : l' = l := by simpa [loops] using hone
    obtain rfl : t' = t := by simpa [wake] using hwake
    rw [begins_of_attempts attempts]
    exact of_attempt (v := w.takeUp t' l') turned attempts left refuses time
  | @asks id t' s loops hrefused left refuses time =>
    obtain rfl : l = ⟨id, .opening t' s⟩ := by simpa [loops] using hone.symm
    cases hwake
    have hnow : (w.takeUp t _).now = t := (sound.now_takeUp due).resolve_left (by simp)
    obtain ⟨refused, hbegins⟩ :=
      of_answer turned rfl hrefused left refuses (time.trans (congrArg (· + _) hnow.symm))
    rw [hbegins]
    exact refused
  | gaveUp loops => rw [loops] at hone; cases hone

theorem move (refused : Refused deadline w begun) (sound : w.Sound) (kept : w.cancelled = false)
    (move : Move may w notes w') (quiet : ∀ n ∈ notes, n.isCall = false) :
    Refused deadline w' (begun + (begins notes).length) ∧ w'.cancelled = false := by
  rcases move.of_quiet kept quiet with
    ⟨rfl, rfl⟩ | ⟨t, l, due, rfl, rfl⟩ | ⟨limit, idle, le, rfl, rfl⟩
  · exact ⟨refused, kept⟩
  · exact ⟨refused.turn sound due, (sound.turned due).cancelled_eq.trans kept⟩
  · refine ⟨?_, kept⟩
    have hlater := lt_of_next?_eq_none idle le
    cases refused with
    | @waits l t loops attempts wake left refuses time =>
      have hlt := hlater l (by simp [loops]) t wake
      refine .waits (w := { w with now := limit }) loops attempts wake left refuses ?_
      rw [time, Nat.max_eq_right (by omega : w.now ≤ t)]
      exact congrArg (· + _) (Nat.max_eq_right (Nat.le_of_lt hlt)).symm
    | asks loops refused left refuses time =>
      exact .asks (w := { w with now := limit }) loops refused left refuses time
    | gaveUp loops => exact .gaveUp (w := { w with now := limit }) loops

theorem run (refused : Refused deadline w begun) (sound : w.Sound) (kept : w.cancelled = false)
    (run : Run may w notes w') (quiet : ∀ n ∈ notes, n.isCall = false) :
    Refused deadline w' (begun + (begins notes).length) ∧ w'.cancelled = false := by
  induction run with
  | refl => exact ⟨refused, kept⟩
  | step before last ih =>
    obtain ⟨refused, kept⟩ := ih fun n hn => quiet n (List.mem_append_left _ hn)
    have := refused.move (sound.run before).1 kept last fun n hn =>
      quiet n (List.mem_append_right _ hn)
    rwa [Nat.add_assoc, ← List.length_append, ← begins_append] at this

/-- The far side refuses whatever a loop tries that was just started. -/
theorem connect (sound : w.Sound) (hstate : w.state = .disconnected)
    (refuses : Refuses (w.config.maxAttempts + 1) w.sessions) :
    Refused (w.now + patience w.config.baseInterval w.config.maxAttempts 1 w.sessions)
      w.connect 0 := by
  have hloops := sound.loops_connect hstate
  rw [Watcher.connect, if_pos hstate] at hloops ⊢
  exact .waits hloops rfl rfl (Nat.zero_le _) refuses (by rw [Nat.max_zero]; rfl)

end Refused

/-! ### The schedule -/

theorem clockTime_eq {ns : Nat} (hwhole : 1000000 ∣ ns) (hlt : ns < longestWait) :
    clockTime ns = ns / 1000000 := by
  obtain ⟨ms, rfl⟩ := hwhole
  rw [clockTime, if_pos hlt]
  omega

/-- The attempts that begin after a session ended at `t`, as the `k`-th in a row, while nobody
calls. -/
structure OnSchedule (config : Config) (t k : Nat) (begun : List Nat) (w : Watcher) : Prop where
  /-- Those of whole milliseconds that the clock can show are kept. -/
  next : k ≤ config.maxAttempts → 1000000 ∣ backoff config.baseInterval k →
    1000000 * t + backoff config.baseInterval k < longestWait →
      (∀ b, begun.head? = some b → b = t + backoff config.baseInterval k / 1000000) ∧
      (∀ b ∈ begun, t + backoff config.baseInterval k / 1000000 ≤ b) ∧
      (w.Settled → t + backoff config.baseInterval k / 1000000 ≤ w.now → begun ≠ [])
  none : config.maxAttempts < k → begun = []

theorem Run.onSchedule {later : List Note}
    (run : Run anyTime (start config script) (h ++ [.ended t]) w)
    (hstop : ∀ n ∈ h, n.isStop = false) (run' : Run anyTime w later w')
    (quiet : ∀ n ∈ later, n.isCall = false) :
    OnSchedule config t (endedSince (h ++ [.ended t])) (begins later) w' := by
  obtain ⟨sound, rfl, recorded⟩ := run.sound
  have kept := run.cancelled_eq_false_iff.2 (by simpa [or_imp, forall_and, Note.isStop] using hstop)
  have after : w.After t := run.after (by simp) kept
  rw [← recorded.attempts_eq]
  refine ⟨fun hle hwhole hlt => ?_, fun hlt => (run'.begins_eq_nil kept quiet (after.gone hlt)).2.2⟩
  obtain ⟨id, hloops⟩ := after.waits hle
  rw [clockTime_eq hwhole (by omega)] at hloops
  rcases run'.first_attempt sound kept quiet hloops with ⟨hsame, -, hnil⟩ | ⟨hfirst, -, hall⟩
  · refine ⟨by simp [hnil], by simp [hnil], fun settled hdue => ?_⟩
    have := settled _ (by rw [hsame]; exact List.mem_singleton_self _) _ rfl
    omega
  · refine ⟨fun b hb => ?_, hall, fun _ _ hnil => ?_⟩
    · rw [hfirst] at hb
      exact (Option.some.inj hb).symm
    · rw [hnil] at hfirst
      cases hfirst

/-- A far side that refuses everything sees one attempt more than a loop may repeat. -/
theorem Run.begins_of_refuses {later : List Note} (sound : w.Sound) (kept : w.cancelled = false)
    (hloops : w.loops = []) (refuses : Refuses (w.config.maxAttempts + 1) w.sessions)
    (run : Run anyTime w.connect later w') (quiet : ∀ n ∈ later, n.isCall = false) :
    (begins later).length ≤ w.config.maxAttempts + 1 ∧
      (w'.Settled →
        w.now + patience w.config.baseInterval w.config.maxAttempts 1 w.sessions ≤ w'.now →
        (begins later).length = w.config.maxAttempts + 1) := by
  have hstate := sound.resting hloops kept
  have hcancelled : w.connect.cancelled = false := by
    rw [Watcher.connect, if_pos hstate]
    exact kept
  obtain ⟨refused, -⟩ :=
    (Refused.connect sound hstate refuses).run sound.connect hcancelled run quiet
  have hconfig : w'.config = w.config :=
    (sound.connect.run run).2.trans (config_connect w)
  rw [Nat.zero_add] at refused
  have hle := refused.le
  rw [hconfig] at hle
  refine ⟨hle, fun settled hdeadline => ?_⟩
  rw [refused.eq_of_settled settled hdeadline, hconfig]

/-- Without calls, the attempt after the `k`-th end of a session in a row begins when the delay is
over, and none begins earlier; after the last attempt that is allowed none begins at all.  A far
side that refuses whatever a loop tries sees the attempts of one loop and no more. -/
theorem reconnect_schedule (config : Config) (script : List Session) :
    (∀ h t w later w', Run anyTime (start config script) (h ++ [.ended t]) w →
      (∀ n ∈ h, n.isStop = false) → Run anyTime w later w' → (∀ n ∈ later, n.isCall = false) →
      ∃ begun, w'.connects = w.connects ++ begun ∧
        OnSchedule config t (endedSince (h ++ [.ended t])) begun w') ∧
    (∀ h w, Run anyTime (start config script) h w → (∀ n ∈ h, n.isStop = false) → w.loops = [] →
      Refuses (config.maxAttempts + 1) w.sessions →
      ∃ deadline, ∀ later w', Run anyTime w.connect later w' → (∀ n ∈ later, n.isCall = false) →
        w'.connects.length ≤ w.connects.length + (config.maxAttempts + 1) ∧
        (w'.Settled → deadline ≤ w'.now →
          w'.connects.length = w.connects.length + (config.maxAttempts + 1))) := by
  constructor
  · intro h t w later w' run hstop run' quiet
    exact ⟨_, run'.connects_eq run.sound.1, run.onSchedule hstop run' quiet⟩
  · intro h w run hstop hloops refuses
    obtain ⟨sound, rfl, -⟩ := run.sound
    refine ⟨w.now + patience w.config.baseInterval w.config.maxAttempts 1 w.sessions,
      fun later w' run' quiet => ?_⟩
    have hbegins :=
      Run.begins_of_refuses sound (run.cancelled_eq_false_iff.2 hstop) hloops refuses run' quiet
    have hconnects := run'.connects_eq sound.connect
    have hsame : w.connect.connects = w.connects := by
      unfold Watcher.connect
      split <;> rfl
    rw [hconnects, hsame, List.length_append]
    exact ⟨Nat.add_le_add_left hbegins.1 _, fun settled hle => by rw [hbegins.2 settled hle]⟩

/-- Two refusals where one repetition is allowed: the second attempt begins a tenth of a second
after the first one failed, and a loop that is started later makes two attempts as well. -/
theorem reconnect_schedule_refusing :
    (∃ w, Run anyTime
        (start ⟨"ws://127.0.0.1:3001", 100000000, 1⟩ (List.replicate 2 { refused := true }))
        [.called, .began 0, .ended 0] w ∧
      ∃ begun, (w.advance 100).connects = [0] ++ begun ∧ begun.head? = some 100) ∧
    ∃ deadline, ∀ ms, deadline ≤ ms →
      ((start ⟨"ws://127.0.0.1:3001", 100000000, 1⟩
        (List.replicate 2 { refused := true })).connect.advance ms).connects.length = 2 := by
  obtain ⟨hnext, hrefused⟩ :=
    reconnect_schedule ⟨"ws://127.0.0.1:3001", 100000000, 1⟩ (List.replicate 2 { refused := true })
  constructor
  · have called : Run anyTime
        (start ⟨"ws://127.0.0.1:3001", 100000000, 1⟩ (List.replicate 2 { refused := true }))
        [.called] _ := .of_move (.connect trivial)
    have began : Run anyTime _ [.called, .began 0] _ :=
      called.step (.turn (t := 0) (l := ⟨0, .starting⟩) rfl)
    have run : Run anyTime _ ([.called, .began 0] ++ [.ended 0]) _ :=
      began.step (.turn (t := 0) (l := ⟨0, .opening 0 { refused := true }⟩) rfl)
    obtain ⟨later, run', quiet, settled, hnow⟩ := Run.of_advance anyTime (goOn _ _) 100
    obtain ⟨begun, hconnects, schedule⟩ := hnext _ _ _ _ _ run (by decide) run' quiet
    obtain ⟨hfirst, -, hdue⟩ := schedule.next (by decide) (by decide) (by decide)
    refine ⟨_, run, begun, hconnects, ?_⟩
    cases begun with
    | nil => exact absurd rfl (hdue settled (by decide))
    | cons b rest => rw [List.head?_cons, hfirst b rfl]; rfl
  · obtain ⟨deadline, hdeadline⟩ := hrefused [] _ .refl (by simp) rfl ⟨by decide, by decide⟩
    refine ⟨deadline, fun ms hms => ?_⟩
    obtain ⟨later, run', quiet, settled, hnow⟩ := Run.of_advance anyTime (connect _) ms
    exact (hdeadline later _ run' quiet).2 settled (by rw [hnow]; exact Nat.le_add_left_of_le hms)

end CodeIndex.Watch
