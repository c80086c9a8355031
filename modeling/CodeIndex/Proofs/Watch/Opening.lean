import CodeIndex.Proofs.Watch.Cancellation

/-! The sessions that open until the loops are cancelled.  They are those that the far side has
ready, in their order and without those that it refuses. -/

namespace CodeIndex.Watch

namespace Note

def opened? : Note → Option (Nat × Session)
  | opened t s => some (t, s)
  | _ => none

def stop? : Note → Option Nat
  | destroyed t | dropped t => some t
  | _ => none

theorem stop?_eq_none {n : Note} (hn : n.isStop = false) : n.stop? = none := by
  cases n <;> first | rfl | cases hn

theorem isStop_of_stop? {n : Note} {t : Nat} (hn : n.stop? = some t) : n.isStop = true := by
  cases n <;> first | rfl | cases hn

end Note

/-- The sessions that opened before the loops were cancelled, with the times at which they did. -/
def openings (history : List Note) : List (Nat × Session) :=
  (history.takeWhile (!·.isStop)).filterMap Note.opened?

/-- The time at which the loops were cancelled, or the present time. -/
def horizon (history : List Note) (now : Nat) : Nat := (history.findSome? Note.stop?).getD now

open Watcher

variable {may : Watcher → Prop} {w w' : Watcher} {l : Loop} {h notes : List Note} {n : Note}
  {config : Config} {script used answers : List Session} {t now : Nat}

/-! ### Up to the cancellation -/

section

variable (hkept : ∀ n ∈ h, n.isStop = false)
include hkept

theorem openings_append (notes : List Note) :
    openings (h ++ notes) = h.filterMap Note.opened? ++ openings notes := by
  rw [openings, List.takeWhile_append_of_pos (by simpa using hkept), List.filterMap_append]
  rfl

theorem horizon_append (now : Nat) (notes : List Note) :
    horizon (h ++ notes) now = horizon notes now := by
  have hnone : h.findSome? Note.stop? = none :=
    List.findSome?_eq_none_iff.2 fun n hn => Note.stop?_eq_none (hkept n hn)
  rw [horizon, List.findSome?_append, hnone]
  rfl

end

theorem openings_cons_of_stop (hn : n.stop? = some t) : openings (n :: notes) = [] := by
  rw [openings, List.takeWhile_cons_of_neg (by simp [Note.isStop_of_stop? hn])]
  rfl

theorem horizon_cons_of_stop (hn : n.stop? = some t) : horizon (n :: notes) now = t := by
  rw [horizon, List.findSome?_cons_of_isSome (by simp [hn]), hn]
  rfl

/-- Only a call cancels the loops. -/
theorem Move.stop_of_cancelled (move : Move may w notes w') (sound : w.Sound)
    (kept : w.cancelled = false) (cancelled : w'.cancelled = true) :
    may w ∧ w'.delivered = w.delivered ∧ ∃ n, notes = [n] ∧ n.stop? = some w.now := by
  cases move with
  | connect =>
    have hsame : w.connect.cancelled = w.cancelled := by unfold Watcher.connect; split <;> rfl
    rw [hsame, kept] at cancelled
    cases cancelled
  | destroy allowed =>
    by_cases hstate : w.state = .destroyed
    · rw [sound.destroyed hstate] at kept
      cases kept
    · refine ⟨allowed, ?_, .destroyed w.now, if_neg hstate, rfl⟩
      rw [Watcher.destroy, if_neg hstate]
      rfl
  | drop allowed => exact ⟨allowed, rfl, _, rfl, rfl⟩
  | turn due =>
    rw [(sound.turned due).cancelled_eq] at cancelled
    exact absurd cancelled (by simp [takeUp, kept])
  | halt _ hcancelled => rw [kept] at hcancelled; cases hcancelled
  | pass => rw [show w.cancelled = true from cancelled] at kept; cases kept

/-- The part of a run before the loops are cancelled tells what opens and what is handed on. -/
theorem Run.upToStop (run : Run may (start config script) h w) :
    ∃ h₀ w₀, Run may (start config script) h₀ w₀ ∧ w₀.cancelled = false ∧ (w₀ = w ∨ may w₀) ∧
      openings h = h₀.filterMap Note.opened? ∧ horizon h w.now = w₀.now ∧
      w.delivered = w₀.delivered := by
  cases hcancelled : w.cancelled with
  | false =>
    have hkept := run.cancelled_eq_false_iff.1 hcancelled
    refine ⟨h, w, run, hcancelled, .inl rfl, ?_, ?_, rfl⟩
    · simpa [openings] using openings_append hkept []
    · simpa [horizon] using horizon_append hkept w.now []
  | true =>
    -- The run before the first call that cancels; what follows hands nothing on any more.
    suffices ∃ h₀ w₀ n rest, Run may (start config script) h₀ w₀ ∧ w₀.cancelled = false ∧ may w₀ ∧
        h = h₀ ++ n :: rest ∧ n.stop? = some w₀.now ∧ w.delivered = w₀.delivered by
      obtain ⟨h₀, w₀, n, rest, before, kept, allowed, rfl, hn, hdelivered⟩ := this
      have hkept := before.cancelled_eq_false_iff.1 kept
      refine ⟨h₀, w₀, before, kept, .inr allowed, ?_, ?_, hdelivered⟩
      · rw [openings_append hkept, openings_cons_of_stop hn, List.append_nil]
      · rw [horizon_append hkept, horizon_cons_of_stop hn]
    induction run with
    | refl => cases hcancelled
    | @step w₁ w₂ h₁ notes before last ih =>
      have sound := before.sound.1
      cases hbefore : w₁.cancelled with
      | false =>
        obtain ⟨allowed, hdelivered, n, rfl, hn⟩ := last.stop_of_cancelled sound hbefore hcancelled
        exact ⟨h₁, w₁, n, [], before, hbefore, allowed, rfl, hn, hdelivered⟩
      | true =>
        obtain ⟨h₀, w₀, n, rest, first, kept, allowed, rfl, hn, hdelivered⟩ := ih hbefore
        refine ⟨h₀, w₀, n, rest ++ notes, first, kept, allowed, by simp, hn, ?_⟩
        exact (last.delivered_of_cancelled sound hbefore).2.trans hdelivered

/-! ### Moves beside the sessions -/

/-- No session is asked for, none opens, and nothing is taken from one. -/
structure Aside (w : Watcher) (notes : List Note) (w' : Watcher) : Prop where
  opened : notes.filterMap Note.opened? = []
  delivered_eq : w'.delivered = w.delivered
  sessions_eq : w'.sessions = w.sessions
  now_le : w.now ≤ w'.now
  loops : w'.loops = w.loops ∨ ∀ l ∈ w.loops ++ w'.loops, l.phase.attempts = true

/-- What the loops have that only loops with a session have, they keep. -/
theorem Aside.flatMap_eq {α : Type} {f : Phase → List α} (aside : Aside w notes w')
    (hf : ∀ p, p.attempts = true → f p = []) :
    (w'.loops.flatMap fun l => f l.phase) = w.loops.flatMap fun l => f l.phase := by
  rcases aside.loops with hsame | hattempts
  · rw [hsame]
  · have hnil : ∀ l ∈ w.loops ++ w'.loops, f l.phase = [] := fun l hl => hf _ (hattempts l hl)
    simp only [List.mem_append, or_imp, forall_and] at hnil
    rw [List.flatMap_eq_nil_iff.2 hnil.1, List.flatMap_eq_nil_iff.2 hnil.2]

theorem Watcher.Sound.attempts_of_disconnected (sound : w.Sound)
    (hstate : w.state = .disconnected) : ∀ l ∈ w.loops, l.phase.attempts = true := by
  rcases sound.loops with hnone | ⟨l, hone, carries⟩
  · simp [hnone]
  · have := carries.state_eq
    cases hphase : l.phase <;> simp_all [Phase.state, Phase.attempts]

/-- Until the loops are cancelled, a move is a turn or stands beside the sessions. -/
theorem Move.of_kept (move : Move may w notes w') (sound : w.Sound) (kept : w'.cancelled = false) :
    (∃ t l, w.due? = some (t, l) ∧ notes = (w.takeUp t l).noted l ∧ w' = (w.takeUp t l).goOn l) ∨
    Aside w notes w' := by
  cases move with
  | connect =>
    refine .inr ?_
    by_cases hstate : w.state = .disconnected
    · have hloops := sound.loops_connect hstate
      have hattempts := sound.attempts_of_disconnected hstate
      rw [if_pos hstate]
      rw [Watcher.connect, if_pos hstate] at hloops ⊢
      refine ⟨rfl, rfl, rfl, Nat.le_refl _, .inr fun l hl => ?_⟩
      rcases List.mem_append.1 hl with hl | hl
      · exact hattempts l hl
      · rw [hloops, List.mem_singleton] at hl
        rw [hl]
        rfl
    · rw [if_neg hstate, Watcher.connect, if_neg hstate]
      exact ⟨rfl, rfl, rfl, Nat.le_refl _, .inl rfl⟩
  | destroy =>
    by_cases hstate : w.state = .destroyed
    · rw [if_pos hstate, Watcher.destroy, if_pos hstate]
      exact .inr ⟨rfl, rfl, rfl, Nat.le_refl _, .inl rfl⟩
    · rw [Watcher.destroy, if_neg hstate] at kept
      cases kept
  | drop => cases kept
  | turn due => exact .inl ⟨_, _, due, rfl, rfl⟩
  | halt _ cancelled => rw [show w.cancelled = false from kept] at cancelled; cases cancelled
  | pass _ le => exact .inr ⟨rfl, rfl, rfl, le, .inl rfl⟩

/-! ### Asking and opening -/

/-- The session that a loop asked for and that has not opened yet. -/
def Phase.asked : Phase → List Session
  | opening _ s => [s]
  | _ => []

theorem Phase.asked_of_attempts {p : Phase} (attempts : p.attempts = true) : p.asked = [] := by
  cases p <;> first | rfl | cases attempts

theorem Phase.Ends.filter_asked {p : Phase} (ends : p.Ends) : p.asked.filter (!·.refused) = [] := by
  cases ends with
  | refused refused => simp [asked, refused]
  | closed => rfl
  | failed => rfl

theorem Phase.Reads.asked_eq {p q : Phase} {texts : List String} (reads : Reads now p texts q) :
    p.asked = [] ∧ q.asked = [] := by
  cases reads <;> exact ⟨rfl, rfl⟩

def Watcher.asked (w : Watcher) : List Session := w.loops.flatMap (·.phase.asked)

/-- The sessions that opened are those of the answers used so far that were not refused, but for one
that was asked for and has not opened yet. -/
structure Answered (used answers : List Session) (history : List Note) (w : Watcher) : Prop where
  answers_eq : answers = used ++ w.sessions
  opened_eq : (history.filterMap Note.opened?).map (·.2) ++ w.asked.filter (!·.refused) =
    used.filter (!·.refused)

namespace Answered

theorem start (config : Config) (script : List Session) :
    Answered [] script [] (start config script) where
  answers_eq := rfl
  opened_eq := rfl

theorem aside (answered : Answered used answers h w) (aside : Aside w notes w') :
    Answered used answers (h ++ notes) w' where
  answers_eq := answered.answers_eq.trans (by rw [aside.sessions_eq])
  opened_eq := by
    have hasked : w'.asked = w.asked := aside.flatMap_eq fun _ => Phase.asked_of_attempts
    rw [List.filterMap_append, aside.opened, List.append_nil, hasked, answered.opened_eq]

/-- A turn of the only loop, which may need one more answer than there are. -/
theorem of_turned (turned : Turned w l notes w') (answers_eq : answers = used ++ w.sessions)
    (opened_eq : (h.filterMap Note.opened?).map (·.2) ++ l.phase.asked.filter (!·.refused) =
      used.filter (!·.refused)) :
    ∃ used' n, Answered used' (answers ++ List.replicate n .silent) (h ++ notes) w' := by
  cases turned with
  | @attempted s rest attempts sessions =>
    refine ⟨used ++ [s], 0, by simp [answers_eq, sessions], ?_⟩
    rw [Phase.asked_of_attempts attempts] at opened_eq
    simp [← opened_eq, Note.opened?, asked, Phase.asked]
  | unanswered attempts sessions =>
    refine ⟨used ++ [.silent], 1, by simp [answers_eq, sessions], ?_⟩
    rw [Phase.asked_of_attempts attempts] at opened_eq
    simp [← opened_eq, List.filterMap_cons, Note.opened?, asked, Phase.asked, Session.silent]
  | opened phase taken =>
    refine ⟨used, 0, by simp [answers_eq], ?_⟩
    rw [phase] at opened_eq
    simp [← opened_eq, Note.opened?, asked, Phase.asked, taken]
  | read reads =>
    refine ⟨used, 0, by simp [answers_eq], ?_⟩
    rw [reads.asked_eq.1] at opened_eq
    simp [← opened_eq, asked, reads.asked_eq.2]
  | backedOff ends =>
    refine ⟨used, 0, by simp [answers_eq], ?_⟩
    rw [ends.filter_asked] at opened_eq
    simp [← opened_eq, Note.opened?, asked, Phase.asked]
  | gaveUp ends =>
    refine ⟨used, 0, by simp [answers_eq], ?_⟩
    rw [ends.filter_asked] at opened_eq
    simp [← opened_eq, Note.opened?, asked]

theorem move (answered : Answered used answers h w) (sound : w.Sound) (move : Move may w notes w')
    (kept : w'.cancelled = false) :
    ∃ used' n, Answered used' (answers ++ List.replicate n .silent) (h ++ notes) w' := by
  rcases move.of_kept sound kept with ⟨t, l, due, rfl, rfl⟩ | beside
  · refine of_turned (sound.turned due) answered.answers_eq ?_
    rw [← answered.opened_eq, asked, (sound.of_due? due).1, List.flatMap_singleton]
  · exact ⟨used, 0, by simpa using answered.aside beside⟩

end Answered

/-- What opens until the loops are cancelled is what the far side has ready, in its order, without
what it refuses. -/
theorem Run.openings_isPrefix (run : Run may (start config script) h w) :
    ∃ n, (openings h).map (·.2) <+:
      (script ++ List.replicate n Session.silent).filter (!·.refused) := by
  obtain ⟨h₀, w₀, before, kept, -, hopenings, -⟩ := run.upToStop
  suffices ∃ used n, Answered used (script ++ List.replicate n Session.silent) h₀ w₀ by
    obtain ⟨used, n, answered⟩ := this
    refine ⟨n, ?_⟩
    rw [hopenings, answered.answers_eq, List.filter_append, ← answered.opened_eq, List.append_assoc]
    exact List.prefix_append _ _
  clear hopenings
  induction before with
  | refl => exact ⟨[], 0, by simpa using Answered.start config script⟩
  | step before last ih =>
    have sound := before.sound.1
    obtain ⟨used, n, answered⟩ := ih (last.kept sound kept)
    obtain ⟨used', m, answered⟩ := answered.move sound last kept
    refine ⟨used', n + m, ?_⟩
    rwa [List.append_assoc, List.replicate_append_replicate] at answered

end CodeIndex.Watch
