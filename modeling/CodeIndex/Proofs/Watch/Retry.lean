import CodeIndex.Proofs.Watch.Cancellation

/-! The attempt that follows the end of a session: it begins when the delay is over, and none
follows when there is none left. -/

namespace CodeIndex.Watch

open Watcher

def Note.began? : Note → Option Nat
  | .began t => some t
  | _ => none

/-- When the attempts began that are noted. -/
def begins (notes : List Note) : List Nat := notes.filterMap Note.began?

@[simp] theorem begins_append (h notes : List Note) :
    begins (h ++ notes) = begins h ++ begins notes := List.filterMap_append

variable {may : Watcher → Prop} {w w' : Watcher} {l : Loop} {h notes : List Note}
  {config : Config} {script : List Session} {t at_ id : Nat}

/-! ### Moves without calls -/

/-- What happens while nobody calls and the loops are not cancelled: a turn of a loop, the clock, or
nothing. -/
theorem Move.of_quiet (move : Move may w notes w') (kept : w.cancelled = false)
    (quiet : ∀ n ∈ notes, n.isCall = false) :
    (notes = [] ∧ w' = w) ∨
    (∃ t l, w.due? = some (t, l) ∧ notes = (w.takeUp t l).noted l ∧ w' = (w.takeUp t l).goOn l) ∨
    ∃ limit, w.next? limit = none ∧ w.now ≤ limit ∧ notes = [] ∧ w' = { w with now := limit } := by
  cases move with
  | connect =>
    by_cases hstate : w.state = .disconnected
    · simp [hstate, Note.isCall] at quiet
    · exact .inl ⟨by simp [hstate], by simp [Watcher.connect, hstate]⟩
  | destroy =>
    by_cases hstate : w.state = .destroyed
    · exact .inl ⟨by simp [hstate], by simp [Watcher.destroy, hstate]⟩
    · simp [hstate, Note.isCall] at quiet
  | drop => simp [Note.isCall] at quiet
  | turn due => exact .inr (.inl ⟨_, _, due, rfl, rfl⟩)
  | halt _ cancelled => rw [kept] at cancelled; cases cancelled
  | pass idle le => exact .inr (.inr ⟨_, idle, le, rfl, rfl⟩)

theorem begins_of_attempts (attempts : l.phase.attempts = true) : begins (w.noted l) = [w.now] := by
  rw [noted_of_attempts attempts]
  cases w.sessions <;> rfl

theorem Turned.connects_eq (turned : Turned w l notes w') :
    w'.connects = w.connects ++ begins notes := by
  cases turned <;> simp [begins, Note.began?]

/-- The attempts that are noted are those that the watcher records. -/
theorem Run.connects_eq (run : Run may w notes w') (sound : w.Sound) :
    w'.connects = w.connects ++ begins notes := by
  induction run with
  | refl => simp [begins]
  | @step w₁ w₂ h₁ notes before last ih =>
    suffices w₂.connects = w₁.connects ++ begins notes by
      rw [this, ih, begins_append, List.append_assoc]
    cases last with
    | connect =>
      unfold Watcher.connect
      split <;> simp [begins, Note.began?, abortCurrent]
    | destroy =>
      unfold Watcher.destroy
      split <;> simp [begins, Note.began?, abortCurrent]
    | drop => simp [begins, Note.began?, Watcher.drop]
    | turn due => exact ((sound.run before).1.turned due).connects_eq
    | halt => simp [begins, takeUp]
    | pass => simp [begins]

theorem now_of_mem_begins {b : Nat} (hb : b ∈ begins (w.noted l)) : b = w.now := by
  unfold noted at hb
  split at hb <;> try split at hb
  all_goals simp_all [begins, Note.began?]

/-! ### The loop after the end of a session -/

/-- The loop waits for its next attempt after the end of a session at `t`, or it has finished. -/
structure Watcher.After (t : Nat) (w : Watcher) : Prop where
  waits : w.attempts ≤ w.config.maxAttempts → ∃ id, w.loops =
    [⟨id, .backingOff (t + clockTime (backoff w.config.baseInterval w.attempts))⟩]
  gone : w.config.maxAttempts < w.attempts → w.loops = []

theorem Turned.after {t : Nat} (turned : Turned w l notes w')
    (hlast : notes.getLast? = some (.ended t)) : w'.After t := by
  cases turned with
  | attempted => cases hlast
  | unanswered => cases hlast
  | opened => cases hlast
  | read => cases hlast
  | backedOff _ left =>
    cases hlast
    exact ⟨fun _ => ⟨l.id, rfl⟩, fun hlt => absurd left (by simp at hlt; omega)⟩
  | gaveUp _ none =>
    cases hlast
    exact ⟨fun hle => absurd none (by simp at hle; omega), fun _ => rfl⟩

theorem Watcher.After.noted_ne_nil (after : w.After t) (due : w.due? = some (at_, l)) :
    (w.takeUp at_ l).noted l ≠ [] := by
  rcases Nat.lt_or_ge w.config.maxAttempts w.attempts with hlt | hle
  · rw [due?_nil (after.gone hlt)] at due
    cases due
  · obtain ⟨id, hloops⟩ := after.waits hle
    have hmem := (mem_of_due? due).1
    rw [hloops, List.mem_singleton] at hmem
    rw [hmem, noted_of_attempts rfl]
    split <;> simp

/-- When the end of a session is what happened last, the loop has not gone on since. -/
theorem Run.after (run : Run may (start config script) h w) (hlast : h.getLast? = some (.ended t))
    (kept : w.cancelled = false) : w.After t := by
  induction run with
  | refl => cases hlast
  | @step w₁ w₂ h₁ notes before last ih =>
    have sound := before.sound.1
    have kept₁ := last.kept sound kept
    -- A move that notes nothing leaves the loop as it waits, and another one is the end itself.
    by_cases hnil : notes = []
    · subst hnil
      rw [List.append_nil] at hlast
      have after := ih hlast kept₁
      rcases last.of_quiet kept₁ (by simp) with
        ⟨-, rfl⟩ | ⟨at_, l, due, hnoted, -⟩ | ⟨limit, -, -, -, rfl⟩
      · exact after
      · exact absurd hnoted.symm (after.noted_ne_nil due)
      · exact ⟨after.waits, after.gone⟩
    · rw [List.getLast?_append, Option.or_of_isSome (by simpa using hnil)] at hlast
      cases last with
      | connect => split at hlast <;> cases hlast
      | destroy => split at hlast <;> cases hlast
      | drop => cases hlast
      | turn due => exact (sound.turned due).after hlast
      | halt => cases hlast
      | pass => cases hlast

/-! ### The next attempt -/

/-- Without calls a watcher without a loop makes no attempt. -/
theorem Run.begins_eq_nil (run : Run may w notes w') (kept : w.cancelled = false)
    (quiet : ∀ n ∈ notes, n.isCall = false) (hloops : w.loops = []) :
    w'.loops = [] ∧ w'.cancelled = false ∧ begins notes = [] := by
  induction run with
  | refl => exact ⟨hloops, kept, rfl⟩
  | step _ last ih =>
    obtain ⟨hloops, kept, hbegins⟩ := ih fun n hn => quiet n (List.mem_append_left _ hn)
    rcases last.of_quiet kept fun n hn => quiet n (List.mem_append_right _ hn) with
      ⟨rfl, rfl⟩ | ⟨at_, l, due, -⟩ | ⟨limit, -, -, rfl, rfl⟩
    · exact ⟨hloops, kept, by simpa using hbegins⟩
    · rw [due?_nil hloops] at due
      cases due
    · exact ⟨hloops, kept, by simpa using hbegins⟩

/-- The clock does not go back, and what begins does so at the present time. -/
theorem Move.now_le (move : Move may w notes w') :
    w.now ≤ w'.now ∧ ∀ b ∈ begins notes, w.now ≤ b := by
  cases move with
  | connect =>
    unfold Watcher.connect
    split <;> exact ⟨Nat.le_refl _, by simp [begins, Note.began?]⟩
  | destroy =>
    unfold Watcher.destroy
    split <;> exact ⟨Nat.le_refl _, by simp [begins, Note.began?]⟩
  | drop => exact ⟨Nat.le_refl _, by simp [begins, Note.began?]⟩
  | @turn t l due =>
    have hle : w.now ≤ (w.takeUp t l).now := Nat.le_max_left ..
    rw [now_goOn]
    exact ⟨hle, fun b hb => now_of_mem_begins hb ▸ hle⟩
  | halt => exact ⟨Nat.le_max_left .., by simp [begins]⟩
  | pass _ le => exact ⟨le, by simp [begins]⟩

/-- Without calls, a loop that waits until a time makes its next attempt then. -/
theorem Run.first_attempt (run : Run may w notes w') (sound : w.Sound) (kept : w.cancelled = false)
    (quiet : ∀ n ∈ notes, n.isCall = false) (hloops : w.loops = [⟨id, .backingOff at_⟩]) :
    w'.loops = [⟨id, .backingOff at_⟩] ∧ w'.cancelled = false ∧ begins notes = [] ∨
    (begins notes).head? = some at_ ∧ at_ ≤ w'.now ∧ ∀ b ∈ begins notes, at_ ≤ b := by
  induction run with
  | refl => exact .inl ⟨hloops, kept, rfl⟩
  | step before last ih =>
    have sound := (sound.run before).1
    rcases ih fun n hn => quiet n (List.mem_append_left _ hn) with
      ⟨hloops, kept, hbegins⟩ | ⟨hfirst, hnow, hall⟩
    · rcases last.of_quiet kept fun n hn => quiet n (List.mem_append_right _ hn) with
        ⟨rfl, rfl⟩ | ⟨t, l, due, rfl, rfl⟩ | ⟨limit, -, -, rfl, rfl⟩
      · exact .inl ⟨hloops, kept, by simpa using hbegins⟩
      · obtain ⟨hone, -, hwake⟩ := sound.of_due? due
        obtain rfl : l = ⟨id, .backingOff at_⟩ := by simpa [hloops] using hone.symm
        cases hwake
        have htime : (takeUp _ _ _).now = _ := (sound.now_takeUp due).resolve_left (by simp)
        refine .inr ?_
        rw [begins_append, hbegins, List.nil_append, begins_of_attempts rfl, now_goOn, htime]
        simp
      · exact .inl ⟨hloops, kept, by simpa using hbegins⟩
    · obtain ⟨hle, hlater⟩ := last.now_le
      refine .inr ⟨?_, Nat.le_trans hnow hle, fun b hb => ?_⟩
      · rw [begins_append, List.head?_append, hfirst]
        rfl
      · rw [begins_append] at hb
        exact (List.mem_append.1 hb).elim (hall b) fun hb => Nat.le_trans hnow (hlater b hb)

end CodeIndex.Watch
