import CodeIndex.Proofs.Watch.Run

/-! The connection loop of a watcher: what a turn of it brings, and what holds of a watcher and its
loop after every run.  There is one loop at most, and its phase decides the state. -/

namespace CodeIndex.Watch

/-! ### What a turn of a loop brings -/

namespace Phase

/-- The loop has not opened a session yet, and does not wait to try again. -/
def isConnecting : Phase → Bool
  | starting | opening .. => true
  | _ => false

/-- The loop takes the frames of an open session. -/
def isConnected : Phase → Bool
  | reading .. | idle => true
  | _ => false

def isBackingOff : Phase → Bool
  | backingOff _ => true
  | _ => false

/-- A connection is open, or is being opened. -/
def hasSocket : Phase → Bool
  | opening .. | reading .. | idle => true
  | _ => false

/-- The state of a watcher with a loop in this phase. -/
def state : Phase → State
  | starting | opening .. => .connecting
  | reading .. | idle => .connected
  | backingOff _ => .disconnected

/-- The next turn is an attempt to connect. -/
def attempts : Phase → Bool
  | starting | backingOff _ => true
  | _ => false

/-- The next turn is the end of a session. -/
inductive Ends : Phase → Prop where
  | refused {t : Nat} {s : Session} (refused : s.refused = true) : Ends (opening t s)
  | closed {t : Nat} : Ends (reading t [] false)
  | failed {t : Nat} {rest : List Item} {hangs : Bool} : Ends (reading t (.failure :: rest) hangs)

/-- The next turn takes an item of an open session, with the text of a frame. -/
inductive Reads (now : Nat) : Phase → List String → Phase → Prop where
  | nothing {t : Nat} : Reads now (reading t [] true) [] idle
  | pause {t ms : Nat} {rest : List Item} {hangs : Bool} :
      Reads now (reading t (.wait ms :: rest) hangs) [] (reading (now + ms) rest hangs)
  | frame {t : Nat} {text : String} {rest : List Item} {hangs : Bool} :
      Reads now (reading t (.frame text :: rest) hangs) [text] (reading now rest hangs)

variable {p q : Phase} {now t : Nat} {texts : List String}

theorem Reads.state_eq (reads : Reads now p texts q) : q.state = p.state := by cases reads <;> rfl

theorem Reads.wake?_eq (reads : Reads now p texts q) (wake : q.wake? = some t) : now ≤ t := by
  cases reads with
  | nothing => cases wake
  | pause => cases wake; exact Nat.le_add_right _ _
  | frame => cases wake; exact Nat.le_refl _

end Phase

/-- The events that are handed on for these texts. -/
def Watcher.accepted (w : Watcher) (texts : List String) : List Event :=
  if w.cancelled then [] else texts.filterMap accept?

/-- What comes of a turn of the only loop of a watcher, and what is noted of it. -/
inductive Turned (w : Watcher) (l : Loop) : List Note → Watcher → Prop where
  | attempted {s : Session} {rest : List Session} (attempts : l.phase.attempts = true)
      (sessions : w.sessions = s :: rest) :
      Turned w l [.began w.now]
        { w with
          state := .connecting
          connects := w.connects ++ [w.now]
          sessions := rest
          loops := [⟨l.id, .opening (w.now + s.delay) s⟩] }
  | unanswered (attempts : l.phase.attempts = true) (sessions : w.sessions = []) :
      Turned w l [.began w.now, .opened w.now .silent]
        { w with
          state := .connected
          connects := w.connects ++ [w.now]
          attempts := 0
          loops := [⟨l.id, .idle⟩] }
  | opened {t : Nat} {s : Session} (phase : l.phase = .opening t s) (taken : s.refused = false) :
      Turned w l [.opened w.now s]
        { w with
          state := .connected
          attempts := 0
          loops := [⟨l.id, .reading w.now s.items s.hangs⟩] }
  | read {texts : List String} {phase : Phase} (reads : Phase.Reads w.now l.phase texts phase) :
      Turned w l []
        { w with delivered := w.delivered ++ w.accepted texts, loops := [⟨l.id, phase⟩] }
  | backedOff (ends : l.phase.Ends) (left : w.attempts < w.config.maxAttempts) :
      Turned w l [.ended w.now]
        { w with
          state := .disconnected
          attempts := w.attempts + 1
          loops := [⟨l.id, .backingOff (w.now +
            Watcher.clockTime (backoff w.config.baseInterval (w.attempts + 1)))⟩] }
  | gaveUp (ends : l.phase.Ends) (none : w.config.maxAttempts ≤ w.attempts) :
      Turned w l [.ended w.now]
        { w with state := .disconnected, attempts := w.attempts + 1, loops := [] }

namespace Watcher

variable {w w' : Watcher} {l : Loop} {t : Nat} {h notes : List Note}

theorem dispatch_eq (w : Watcher) (text : String) :
    w.dispatch text = { w with delivered := w.delivered ++ w.accepted [text] } := by
  unfold dispatch accepted
  cases haccept : accept? text with
  | none =>
    simp only [List.filterMap_cons, haccept, List.filterMap_nil, ite_self, List.append_nil]
  | some e =>
    simp only [List.filterMap_cons, haccept, List.filterMap_nil]
    split
    · rw [List.append_nil]
    · rfl

/-- What is noted of an attempt. -/
theorem noted_of_attempts (attempts : l.phase.attempts = true) :
    w.noted l = match w.sessions with
      | [] => [.began w.now, .opened w.now .silent]
      | _ :: _ => [.began w.now] := by
  obtain ⟨id, phase⟩ := l
  cases phase with
  | starting => rfl
  | backingOff => rfl
  | _ => cases attempts

theorem noted_of_ends (ends : l.phase.Ends) : w.noted l = [.ended w.now] := by
  obtain ⟨id, phase⟩ := l
  cases ends with
  | refused refused => simp [noted, refused]
  | closed => rfl
  | failed => rfl

theorem turned_attempt (alone : w.loops = []) (alive : w.state ≠ .destroyed)
    (attempts : l.phase.attempts = true) : Turned w l (w.noted l) (w.attempt l.id) := by
  rw [noted_of_attempts attempts]
  cases hsessions : w.sessions with
  | nil =>
    have := Turned.unanswered attempts hsessions
    simpa [attempt, enter?, alive, hsessions, sessionOpened, resume, alone] using this
  | cons s rest =>
    have := Turned.attempted attempts hsessions
    simpa [attempt, enter?, alive, hsessions, resume, alone] using this

theorem turned_sessionEnded (alone : w.loops = []) (alive : w.state ≠ .destroyed)
    (ends : l.phase.Ends) : Turned w l (w.noted l) (w.sessionEnded l.id) := by
  rw [noted_of_ends ends]
  by_cases hleft : w.attempts < w.config.maxAttempts
  · have := Turned.backedOff ends hleft
    simpa [sessionEnded, enter?, alive, Nat.not_lt.2 hleft, resume, alone] using this
  · have := Turned.gaveUp ends (Nat.not_lt.1 hleft)
    simpa [sessionEnded, enter?, alive, Nat.lt_succ_of_le (Nat.not_lt.1 hleft), alone] using this

/-- The turns of the only loop of a watcher, if the watcher is not destroyed. -/
theorem turned_goOn (alone : w.loops = []) (alive : w.state ≠ .destroyed)
    (wake : l.phase.wake? = some t) : Turned w l (w.noted l) (w.goOn l) := by
  obtain ⟨id, phase⟩ := l
  cases phase with
  | starting => exact turned_attempt (l := ⟨id, .starting⟩) alone alive rfl
  | backingOff at_ => exact turned_attempt (l := ⟨id, .backingOff at_⟩) alone alive rfl
  | idle => cases wake
  | opening at_ s =>
    cases hrefused : s.refused with
    | true =>
      have := turned_sessionEnded (l := ⟨id, .opening at_ s⟩) alone alive (.refused hrefused)
      simpa [goOn, hrefused] using this
    | false =>
      have := Turned.opened (w := w) (l := ⟨id, .opening at_ s⟩) rfl hrefused
      simpa [goOn, noted, hrefused, sessionOpened, enter?, alive, resume, alone] using this
  | reading at_ items hangs =>
    match items, hangs with
    | [], false =>
      exact turned_sessionEnded (l := ⟨id, .reading at_ [] false⟩) alone alive .closed
    | [], true =>
      have := Turned.read (w := w) (l := ⟨id, .reading at_ [] true⟩) .nothing
      simpa [goOn, noted, accepted, resume, alone] using this
    | .wait ms :: rest, hangs =>
      have := Turned.read (w := w) (l := ⟨id, .reading at_ (.wait ms :: rest) hangs⟩) .pause
      simpa [goOn, noted, accepted, resume, alone] using this
    | .frame text :: rest, hangs =>
      have := Turned.read (w := w) (l := ⟨id, .reading at_ (.frame text :: rest) hangs⟩) .frame
      simpa [goOn, noted, dispatch_eq, resume, alone] using this
    | .failure :: rest, hangs =>
      exact turned_sessionEnded (l := ⟨id, .reading at_ (.failure :: rest) hangs⟩) alone alive
        .failed

end Watcher

namespace Turned

variable {w w' : Watcher} {l : Loop} {notes : List Note}

theorem config_eq (turned : Turned w l notes w') : w'.config = w.config := by cases turned <;> rfl

theorem cancelled_eq (turned : Turned w l notes w') : w'.cancelled = w.cancelled := by
  cases turned <;> rfl

theorem alive (turned : Turned w l notes w') (alive : w.state ≠ .destroyed) :
    w'.state ≠ .destroyed := by
  cases turned with
  | read => exact alive
  | _ => simp

end Turned

/-! ### The loop and its watcher -/

namespace Watcher

/-- What holds of a watcher with a loop. -/
structure Carries (w : Watcher) (l : Loop) : Prop where
  current : w.current = some l.id
  state_eq : w.state = l.phase.state
  /-- The loop does not stay behind the clock. -/
  ahead : ∀ t, l.phase.wake? = some t → l.phase = .starting ∨ w.now ≤ t
  /-- The loop has attempts left. -/
  left : w.attempts ≤ w.config.maxAttempts

/-- There is one loop at most, and without one the watcher is disconnected, unless it was destroyed
or dropped. -/
structure Sound (w : Watcher) : Prop where
  loops : w.loops = [] ∨ ∃ l, w.loops = [l] ∧ w.Carries l
  resting : w.loops = [] → w.cancelled = false → w.state = .disconnected
  destroyed : w.state = .destroyed → w.cancelled = true
  bounded : w.attempts ≤ w.config.maxAttempts + 1

variable {may : Watcher → Prop} {w w' : Watcher} {l : Loop} {t limit : Nat} {notes : List Note}

theorem config_connect (w : Watcher) : w.connect.config = w.config := by
  unfold connect
  split <;> rfl

theorem Carries.alive (carries : w.Carries l) : w.state ≠ .destroyed := by
  rw [carries.state_eq]
  cases l.phase <;> simp [Phase.state]

theorem Sound.start (config : Config) (script : List Session) : (start config script).Sound where
  loops := .inl rfl
  resting _ _ := rfl
  destroyed h := by cases h
  bounded := Nat.zero_le _

namespace Sound

/-- The loop that was started last is the only one. -/
theorem loops_abortCurrent (sound : w.Sound) : w.abortCurrent.loops = [] := by
  rcases sound.loops with hnone | ⟨l, hone, carries⟩
  · simp [abortCurrent, hnone]
  · simp [abortCurrent, hone, carries.current]

theorem loops_connect (sound : w.Sound) (hstate : w.state = .disconnected) :
    w.connect.loops = [⟨w.started, .starting⟩] := by
  rw [connect, if_pos hstate]
  show w.abortCurrent.loops ++ [_] = _
  rw [sound.loops_abortCurrent]
  rfl

theorem of_due? (sound : w.Sound) (due : w.due? = some (t, l)) :
    w.loops = [l] ∧ w.Carries l ∧ l.phase.wake? = some t := by
  obtain ⟨hmem, hwake, -⟩ := mem_of_due? due
  rcases sound.loops with hnone | ⟨l', hone, carries⟩
  · rw [hnone] at hmem; cases hmem
  · obtain rfl := List.mem_singleton.1 (hone ▸ hmem)
    exact ⟨hone, carries, hwake⟩

theorem loops_takeUp (sound : w.Sound) (due : w.due? = some (t, l)) :
    (w.takeUp t l).loops = [] := by
  simp [takeUp, (sound.of_due? due).1]

theorem turned (sound : w.Sound) (due : w.due? = some (t, l)) :
    Turned (w.takeUp t l) l ((w.takeUp t l).noted l) ((w.takeUp t l).goOn l) := by
  obtain ⟨-, carries, hwake⟩ := sound.of_due? due
  exact turned_goOn (sound.loops_takeUp due) carries.alive hwake

/-- When a loop is taken up, the clock shows its time. -/
theorem now_takeUp (sound : w.Sound) (due : w.due? = some (t, l)) :
    l.phase = .starting ∧ (w.takeUp t l).now = w.now ∨ (w.takeUp t l).now = t := by
  obtain ⟨-, carries, hwake⟩ := sound.of_due? due
  rcases carries.ahead t hwake with hstarting | hle
  · rw [hstarting] at hwake
    cases hwake
    exact .inl ⟨hstarting, Nat.max_zero ..⟩
  · exact .inr (Nat.max_eq_right hle)

theorem of_carries {l : Loop} (hloops : w.loops = [l]) (carries : w.Carries l) : w.Sound where
  loops := .inr ⟨l, hloops, carries⟩
  resting hnone := by rw [hloops] at hnone; cases hnone
  destroyed hstate := absurd hstate carries.alive
  bounded := Nat.le_succ_of_le carries.left

/-- A watcher with one loop, which goes on at the present time or later. -/
theorem of_loop {l : Loop} (hloops : w.loops = [l]) (current : w.current = some l.id)
    (state_eq : w.state = l.phase.state) (ahead : ∀ t, l.phase.wake? = some t → w.now ≤ t)
    (left : w.attempts ≤ w.config.maxAttempts) : w.Sound :=
  of_carries hloops ⟨current, state_eq, fun t ht => .inr (ahead t ht), left⟩

theorem of_turned {v : Watcher} (turned : Turned v l notes w') (carries : w.Carries l)
    (hstate : v.state = w.state) (hcurrent : v.current = w.current)
    (hattempts : v.attempts = w.attempts) (hconfig : v.config = w.config) : w'.Sound := by
  have left : v.attempts ≤ v.config.maxAttempts := by rw [hattempts, hconfig]; exact carries.left
  have current : v.current = some l.id := by rw [hcurrent, carries.current]
  cases turned with
  | attempted => exact of_loop rfl current rfl (by simp [Phase.wake?]) left
  | unanswered => exact of_loop rfl current rfl (by simp [Phase.wake?]) (Nat.zero_le _)
  | opened => exact of_loop rfl current rfl (by simp [Phase.wake?]) (Nat.zero_le _)
  | read reads =>
    refine of_loop rfl current ?_ (fun t => reads.wake?_eq) left
    rw [reads.state_eq, ← carries.state_eq, ← hstate]
  | backedOff _ hleft => exact of_loop rfl current rfl (by simp [Phase.wake?]) hleft
  | gaveUp _ _ => exact ⟨.inl rfl, fun _ _ => rfl, fun h => (by cases h), Nat.succ_le_succ left⟩

protected theorem connect (sound : w.Sound) : w.connect.Sound := by
  by_cases hstate : w.state = .disconnected
  · have hloops := sound.loops_connect hstate
    have carries : w.connect.Carries ⟨w.started, .starting⟩ := by
      rw [connect, if_pos hstate]
      exact ⟨rfl, rfl, fun _ _ => .inl rfl, Nat.zero_le _⟩
    exact of_carries hloops carries
  · rwa [connect, if_neg hstate]

protected theorem destroy (sound : w.Sound) : w.destroy.Sound := by
  unfold destroy
  split
  · exact sound
  · exact ⟨.inl sound.loops_abortCurrent, fun _ h => (by cases h), fun _ => rfl, sound.bounded⟩

protected theorem drop (sound : w.Sound) : w.drop.Sound := by
  refine ⟨?_, fun _ h => (by cases h), fun _ => rfl, sound.bounded⟩
  rcases sound.loops with hnone | ⟨l, hone, current, state_eq, ahead, left⟩
  · exact .inl hnone
  · exact .inr ⟨l, hone, current, state_eq, ahead, left⟩

theorem move (sound : w.Sound) (move : Move may w notes w') : w'.Sound := by
  cases move with
  | connect => exact sound.connect
  | destroy => exact sound.destroy
  | drop => exact sound.drop
  | turn due => exact of_turned (sound.turned due) (sound.of_due? due).2.1 rfl rfl rfl rfl
  | halt due cancelled =>
    refine ⟨.inl (sound.loops_takeUp due), fun _ hkept => ?_, fun _ => cancelled, sound.bounded⟩
    rw [show w.cancelled = false from hkept] at cancelled
    cases cancelled
  | pass idle le =>
    refine ⟨?_, sound.resting, sound.destroyed, sound.bounded⟩
    rcases sound.loops with hnone | ⟨l, hone, current, state_eq, ahead, left⟩
    · exact .inl hnone
    · refine .inr ⟨l, hone, current, state_eq, fun t hwake => .inr (Nat.le_of_lt ?_), left⟩
      exact lt_of_next?_eq_none idle le l (by rw [hone]; exact List.mem_singleton_self l) t hwake

theorem config_move (sound : w.Sound) (move : Move may w notes w') : w'.config = w.config := by
  cases move with
  | connect => exact config_connect w
  | destroy => unfold destroy; split <;> rfl
  | turn due => exact (sound.turned due).config_eq
  | _ => rfl

theorem run (sound : w.Sound) (run : Run may w notes w') : w'.Sound ∧ w'.config = w.config := by
  induction run with
  | refl => exact ⟨sound, rfl⟩
  | step _ last ih => exact ⟨ih.1.move last, (ih.1.config_move last).trans ih.2⟩

end Sound

end Watcher

end CodeIndex.Watch
