import CodeIndex.Proofs.Watch.Opening

/-! The events that a watcher hands on.  They are those of the frames that the sessions brought, one
session after another, up to the present time or to the call that cancelled the loops. -/

namespace CodeIndex.Watch

/-- The frames that come up to a time, and before a failure, when the items go on from a time. -/
def arrived (limit : Nat) : Nat → List Item → List String
  | _, [] => []
  | t, .wait ms :: rest => arrived limit (t + ms) rest
  | t, .frame text :: rest => if t ≤ limit then text :: arrived limit t rest else []
  | _, .failure :: _ => []

open Watcher

variable {may : Watcher → Prop} {w w' : Watcher} {l : Loop} {h notes : List Note}
  {config : Config} {script : List Session} {t limit now : Nat} {items : List Item}
  {texts : List String}

theorem arrived_of_lt (hlt : limit < t) : arrived limit t items = [] := by
  induction items generalizing t with
  | nil => rfl
  | cons item rest ih =>
    cases item with
    | wait ms => exact ih (by omega)
    | frame text => rw [arrived, if_neg (Nat.not_le.2 hlt)]
    | failure => rfl

/-! ### Frames that are still to come -/

namespace Phase

variable {p q : Phase}

/-- The frames that the open session of a loop brings up to a time. -/
def coming (limit : Nat) : Phase → List String
  | reading t items _ => arrived limit t items
  | _ => []

theorem coming_of_attempts (attempts : p.attempts = true) : p.coming limit = [] := by
  cases p <;> first | rfl | cases attempts

theorem Ends.coming_eq_nil (ends : p.Ends) : p.coming limit = [] := by cases ends <;> rfl

theorem Reads.attempts_eq (reads : Reads now p texts q) : p.attempts = false := by
  cases reads <;> rfl

/-- What a turn takes from an open session comes first. -/
theorem Reads.coming_eq (reads : Reads now p texts q) (wake : p.wake? = some now)
    (hle : now ≤ limit) : p.coming limit = texts ++ q.coming limit := by
  cases reads with
  | nothing => rfl
  | pause => cases wake; rfl
  | frame => cases wake; simp [coming, arrived, hle]

end Phase

def Watcher.coming (w : Watcher) (limit : Nat) : List String :=
  w.loops.flatMap (·.phase.coming limit)

/-- At rest all frames that were to come up to now have come. -/
theorem Watcher.Rested.coming_eq_nil (rested : w.Rested) : w.coming w.now = [] := by
  rw [coming, List.flatMap_eq_nil_iff]
  intro l hl
  have hwait := rested l hl
  cases hphase : l.phase with
  | reading t items hangs =>
    rw [hphase] at hwait
    exact arrived_of_lt ((hwait t rfl).resolve_left (by simp))
  | _ => rfl

/-! ### What was told -/

/-- The frames that sessions bring up to a time. -/
def brought (limit : Nat) (opened : List (Nat × Session)) : List String :=
  opened.flatMap fun o => arrived limit o.1 o.2.items

theorem brought_append (first later : List (Nat × Session)) :
    brought limit (first ++ later) = brought limit first ++ brought limit later :=
  List.flatMap_append

/-- The events handed on are those of these texts, and the sessions brought the texts and bring what
is still to come. -/
structure Told (texts : List String) (history : List Note) (w : Watcher) : Prop where
  delivered_eq : w.delivered = texts.filterMap accept?
  brought_eq : ∀ limit, w.now ≤ limit →
    brought limit (history.filterMap Note.opened?) = texts ++ w.coming limit

namespace Told

theorem start (config : Config) (script : List Session) : Told [] [] (start config script) where
  delivered_eq := rfl
  brought_eq _ _ := rfl

theorem aside (told : Told texts h w) (aside : Aside w notes w') : Told texts (h ++ notes) w' where
  delivered_eq := aside.delivered_eq.trans told.delivered_eq
  brought_eq limit hle := by
    have hcoming : w'.coming limit = w.coming limit :=
      aside.flatMap_eq fun _ => Phase.coming_of_attempts
    rw [List.filterMap_append, aside.opened, List.append_nil, hcoming]
    exact told.brought_eq limit (Nat.le_trans aside.now_le hle)

/-- The frames of a session that opens are all to come when its loop had none before. -/
theorem of_coming_eq_nil (hdelivered : w'.delivered = texts.filterMap accept?)
    (hbrought : ∀ limit, w'.now ≤ limit →
      brought limit (h.filterMap Note.opened?) = texts ++ l.phase.coming limit)
    (hcoming : ∀ limit, l.phase.coming limit = [])
    (hnotes : ∀ limit, brought limit (notes.filterMap Note.opened?) = w'.coming limit) :
    Told texts (h ++ notes) w' where
  delivered_eq := hdelivered
  brought_eq limit hle := by
    rw [List.filterMap_append, brought_append, hbrought limit hle, hcoming, hnotes, List.append_nil]

/-- A turn of the only loop, when the events so far are those of these texts. -/
theorem of_turned (turned : Turned w l notes w') (kept : w.cancelled = false)
    (wake : l.phase.attempts = true ∨ l.phase.wake? = some w.now)
    (hdelivered : w.delivered = texts.filterMap accept?)
    (hbrought : ∀ limit, w.now ≤ limit →
      brought limit (h.filterMap Note.opened?) = texts ++ l.phase.coming limit) :
    ∃ texts', Told texts' (h ++ notes) w' := by
  cases turned with
  | attempted attempts =>
    exact ⟨texts, of_coming_eq_nil hdelivered hbrought
      (fun _ => Phase.coming_of_attempts attempts) fun _ => rfl⟩
  | unanswered attempts =>
    exact ⟨texts, of_coming_eq_nil hdelivered hbrought
      (fun _ => Phase.coming_of_attempts attempts) fun _ => rfl⟩
  | opened phase =>
    exact ⟨texts, of_coming_eq_nil hdelivered hbrought (fun _ => by rw [phase]; rfl) fun _ => rfl⟩
  | @read taken phase reads =>
    -- The loop goes on at the present time, so what it takes has arrived.
    have wake := wake.resolve_left (by rw [reads.attempts_eq]; simp)
    refine ⟨texts ++ taken, ?_, fun limit hle => ?_⟩
    · simp [hdelivered, accepted, kept]
    · rw [List.append_nil, hbrought limit hle, reads.coming_eq wake hle, coming,
        List.flatMap_singleton, List.append_assoc]
  | backedOff ends =>
    exact ⟨texts, of_coming_eq_nil hdelivered hbrought (fun _ => ends.coming_eq_nil) fun _ => rfl⟩
  | gaveUp ends =>
    exact ⟨texts, of_coming_eq_nil hdelivered hbrought (fun _ => ends.coming_eq_nil) fun _ => rfl⟩

theorem move (told : Told texts h w) (sound : w.Sound) (move : Move may w notes w')
    (kept : w'.cancelled = false) : ∃ texts', Told texts' (h ++ notes) w' := by
  rcases move.of_kept sound kept with ⟨t, l, due, rfl, rfl⟩ | beside
  · have turned := sound.turned due
    obtain ⟨hone, -, hwake⟩ := sound.of_due? due
    refine of_turned turned (turned.cancelled_eq.symm.trans kept) ?_ told.delivered_eq
      fun limit hle => ?_
    · rcases sound.now_takeUp due with ⟨hstarting, -⟩ | hnow
      · exact .inl (by rw [hstarting]; rfl)
      · exact .inr (by rw [hnow, hwake])
    · rw [told.brought_eq limit (Nat.le_trans (Nat.le_max_left ..) hle), coming, hone,
        List.flatMap_singleton]
  · exact ⟨texts, told.aside beside⟩

end Told

theorem Run.told (run : Run may (start config script) h w) (kept : w.cancelled = false) :
    ∃ texts, Told texts h w := by
  induction run with
  | refl => exact ⟨[], .start config script⟩
  | step before last ih =>
    have sound := before.sound.1
    obtain ⟨texts, told⟩ := ih (last.kept sound kept)
    exact told.move sound last kept

/-- Whatever calls and movements of the clock there are, the events handed on are those of the
frames that tell of a change of a visible file, each once and in the order in which they came: those
of the sessions that opened, one session after another, up to a failure, to the call that cancelled
the loops, or to now.  No session is left out that the far side did not refuse. -/
theorem delivered_eq_arrived (config : Config) (script : List Session) :
    (∀ actions : List Action, ∃ h,
      Run Rested (start config script) h (actions.foldl perform (start config script)) ∧
        (actions.foldl perform (start config script)).Rested) ∧
    ∀ h w, Run Rested (start config script) h w → w.Rested →
      w.delivered = (((openings h).flatMap fun o =>
        arrived (horizon h w.now) o.1 o.2.items).filterMap Event.ofText?).filter
          (fun e => !Files.isHidden e.filePath) ∧
      ∃ n, (openings h).map (·.2) <+:
        (script ++ List.replicate n Session.silent).filter (!·.refused) := by
  refine ⟨Run.of_performAll (fun _ => id) fun l hl => (by cases hl), fun h w run rested =>
    ⟨?_, run.openings_isPrefix⟩⟩
  obtain ⟨h₀, w₀, before, kept, hrested, hopenings, hhorizon, hdelivered⟩ := run.upToStop
  have rested : w₀.Rested := hrested.elim (fun heq => heq ▸ rested) id
  obtain ⟨texts, told⟩ := before.told kept
  have hbrought := told.brought_eq w₀.now (Nat.le_refl _)
  rw [rested.coming_eq_nil, List.append_nil] at hbrought
  calc w.delivered
      = texts.filterMap accept? := hdelivered.trans told.delivered_eq
    _ = (brought (horizon h w.now) (openings h)).filterMap accept? := by
        rw [hhorizon, hopenings, hbrought]
    _ = _ := (List.filter_filterMap ..).symm

/-- Two frames come at once, one of them of a hidden file, and a third one a second later, when the
watcher was destroyed. -/
theorem delivered_eq_arrived_destroyed :
    ∃ h w, Run Rested (start ⟨"ws://127.0.0.1:3001", 100000000, 5⟩
        [{ items := [.frame (frameOf "src/a.js"), .frame (frameOf ".git/config"), .wait 1000,
          .frame (frameOf "src/b.js")] }]) h w ∧
      w.Rested ∧ (openings h).length = 1 ∧ horizon h w.now = 500 ∧ w.now = 2000 ∧
      w.delivered.map (·.filePath) = ["src/a.js"] := by
  have called : Run Rested (start ⟨"ws://127.0.0.1:3001", 100000000, 5⟩
      [{ items := [.frame (frameOf "src/a.js"), .frame (frameOf ".git/config"), .wait 1000,
        .frame (frameOf "src/b.js")] }]) [.called] _ :=
    .of_move (.connect fun l hl => by cases hl)
  have opened := (called.turn rfl).turn rfl
  have read := ((opened.turn rfl).turn rfl).turn rfl
  have waits := read.pass 500 rfl (by decide)
  have destroyed := waits.step (.destroy (by
    intro l (hl : l ∈ [⟨0, .reading 1000 [.frame (frameOf "src/b.js")] false⟩]) t ht
    rw [List.mem_singleton.1 hl] at ht
    cases ht
    exact .inr (by decide)))
  have run := destroyed.pass 2000 rfl (by decide)
  have hdelivered := ((delivered_eq_arrived _ _).2 _ _ run fun l hl => by cases hl).1
  refine ⟨_, _, run, fun l hl => (by cases hl), rfl, rfl, rfl, ?_⟩
  rw [hdelivered]
  rfl

end CodeIndex.Watch
