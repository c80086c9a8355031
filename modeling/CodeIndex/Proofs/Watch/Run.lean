import CodeIndex.Watch.Watcher

/-! Runs of the watcher, with what is noted of them.  A run passes through every moment at which a
loop stops to wait, not only through those between two movements of the clock.  When a loop is taken
up after its cancellation, it may end, as `Watcher.step` has it, but it may as well go on once more:
which of the two comes first is left open. -/

namespace CodeIndex.Watch

/-- What is noted of a run, with times of the clock. -/
inductive Note where
  /-- A call of `connect` started a loop. -/
  | called
  /-- An attempt to connect began. -/
  | began (at_ : Nat)
  | opened (at_ : Nat) (session : Session)
  /-- A session was refused, closed or broken off. -/
  | ended (at_ : Nat)
  | destroyed (at_ : Nat)
  | dropped (at_ : Nat)
  deriving DecidableEq, Repr

namespace Note

/-- The note tells of a call from outside. -/
def isCall : Note → Bool
  | called | destroyed _ | dropped _ => true
  | _ => false

/-- The note tells of a call that cancels the loops. -/
def isStop : Note → Bool
  | destroyed _ | dropped _ => true
  | _ => false

/-- The count of attempts begins anew. -/
def restarts : Note → Bool
  | called | opened .. => true
  | _ => false

def isEnd : Note → Bool
  | ended _ => true
  | _ => false

end Note

/-- The sessions that ended since a loop was started or a session opened last. -/
def endedSince (history : List Note) : Nat :=
  (history.reverse.takeWhile (!·.restarts)).countP (·.isEnd)

/-- What the far side opens when its answers are used up. -/
def Session.silent : Session := { hangs := true }

namespace Watcher

variable {w w' : Watcher} {l : Loop} {t ms limit : Nat}

def start (config : Config) (script : List Session) : Watcher := { config, sessions := script }

/-- What is noted when a loop goes on that was taken out. -/
def noted (w : Watcher) (l : Loop) : List Note :=
  match l.phase with
  | .starting | .backingOff _ =>
    match w.sessions with
    | [] => [.began w.now, .opened w.now .silent]
    | _ :: _ => [.began w.now]
  | .opening _ s => if s.refused then [.ended w.now] else [.opened w.now s]
  | .reading _ [] false => [.ended w.now]
  | .reading _ (.failure :: _) _ => [.ended w.now]
  | _ => []

theorem isCall_of_mem_noted {n : Note} (hn : n ∈ w.noted l) : n.isCall = false := by
  revert n
  unfold noted
  split <;> try split
  all_goals simp [Note.isCall]

/-- Nothing is due at the present time. -/
def Settled (w : Watcher) : Prop := ∀ l ∈ w.loops, ∀ t, l.phase.wake? = some t → w.now < t

/-- Nothing is due at the present time, but that a loop that was just started makes its attempt. -/
def Rested (w : Watcher) : Prop :=
  ∀ l ∈ w.loops, ∀ t, l.phase.wake? = some t → l.phase = .starting ∨ w.now < t

theorem Settled.rested (h : w.Settled) : w.Rested := fun l hl t ht => .inr (h l hl t ht)

end Watcher

open Watcher

/-- One move of a watcher, and what is noted of it.  Calls come at moments that `may` allows. -/
inductive Move (may : Watcher → Prop) : Watcher → List Note → Watcher → Prop where
  | connect {w : Watcher} (allowed : may w) :
      Move may w (if w.state = .disconnected then [.called] else []) w.connect
  | destroy {w : Watcher} (allowed : may w) :
      Move may w (if w.state = .destroyed then [] else [.destroyed w.now]) w.destroy
  | drop {w : Watcher} (allowed : may w) : Move may w [.dropped w.now] w.drop
  | turn {w : Watcher} {t : Nat} {l : Loop} (due : w.due? = some (t, l)) :
      Move may w ((w.takeUp t l).noted l) ((w.takeUp t l).goOn l)
  /-- A cancelled loop ends. -/
  | halt {w : Watcher} {t : Nat} {l : Loop} (due : w.due? = some (t, l))
      (cancelled : w.cancelled = true) : Move may w [] (w.takeUp t l)
  /-- The clock moves on while nothing is due. -/
  | pass {w : Watcher} {limit : Nat} (idle : w.next? limit = none) (le : w.now ≤ limit) :
      Move may w [] { w with now := limit }

/-- Any number of moves, and what is noted of them, in the order in which it happened. -/
inductive Run (may : Watcher → Prop) (w : Watcher) : List Note → Watcher → Prop where
  | refl : Run may w [] w
  | step {w₁ w₂ : Watcher} {history notes : List Note} (run : Run may w history w₁)
      (move : Move may w₁ notes w₂) : Run may w (history ++ notes) w₂

/-- Calls may come at any moment. -/
def anyTime (_ : Watcher) : Prop := True

variable {may : Watcher → Prop} {w w' w'' : Watcher} {h h' : List Note} {l : Loop}
  {t ms limit : Nat}

theorem Run.trans (run : Run may w h w') (later : Run may w' h' w'') :
    Run may w (h ++ h') w'' := by
  induction later with
  | refl => rwa [List.append_nil]
  | step _ move ih => rw [← List.append_assoc]; exact .step ih move

theorem Run.of_move (move : Move may w h w') : Run may w h w' := .step .refl move

theorem Run.turn (run : Run may w h w') (due : w'.due? = some (t, l)) :
    Run may w (h ++ (w'.takeUp t l).noted l) ((w'.takeUp t l).goOn l) := run.step (.turn due)

theorem Run.pass (run : Run may w h w') (limit : Nat) (idle : w'.next? limit = none)
    (le : w'.now ≤ limit) : Run may w h { w' with now := limit } := by
  simpa using run.step (.pass idle le)

/-! ### The loop that goes on first -/

namespace Watcher

theorem sooner_le (first : Option (Nat × Loop)) (next : Nat × Loop) :
    ∃ f, sooner first next = some f ∧ (some f = first ∨ f = next) ∧ f.1 ≤ next.1 ∧
      ∀ g, first = some g → f.1 ≤ g.1 := by
  cases first with
  | none => exact ⟨next, rfl, .inr rfl, Nat.le_refl _, by simp⟩
  | some f =>
    by_cases hlt : next.1 < f.1
    · exact ⟨next, by simp [sooner, hlt], .inr rfl, Nat.le_refl _, by simp; omega⟩
    · exact ⟨f, by simp [sooner, hlt], .inl rfl, by omega, by simp⟩

theorem foldl_sooner (cs : List (Nat × Loop)) (first : Option (Nat × Loop)) :
    (cs.foldl sooner first = none → first = none ∧ cs = []) ∧
    ∀ f, cs.foldl sooner first = some f →
      (first = some f ∨ f ∈ cs) ∧ (∀ g, first = some g → f.1 ≤ g.1) ∧ ∀ g ∈ cs, f.1 ≤ g.1 := by
  induction cs generalizing first with
  | nil => exact ⟨fun h => ⟨h, rfl⟩, fun f h => ⟨.inl h, by simp_all, by simp⟩⟩
  | cons c rest ih =>
    obtain ⟨f, hf, hfrom, hle, hfirst⟩ := sooner_le first c
    obtain ⟨hnone, hsome⟩ := ih (sooner first c)
    rw [List.foldl_cons]
    refine ⟨fun h => ?_, fun g h => ?_⟩
    · rw [hf] at hnone
      cases (hnone (hf ▸ h)).1
    · obtain ⟨hmem, hbest, hrest⟩ := hsome g h
      have hgf : g.1 ≤ f.1 := hbest f hf
      refine ⟨?_, fun g' hg' => Nat.le_trans hgf (hfirst g' hg'), ?_⟩
      · rcases hmem with hmem | hmem
        · rw [hf, Option.some.injEq] at hmem
          subst hmem
          rcases hfrom with hfrom | rfl
          · exact .inl hfrom.symm
          · exact .inr List.mem_cons_self
        · exact .inr (List.mem_cons_of_mem _ hmem)
      · intro g' hg'
        rcases List.mem_cons.1 hg' with rfl | hg'
        · exact Nat.le_trans hgf hle
        · exact hrest g' hg'

/-- The loop that is due is one of the loops, and none goes on before it. -/
theorem mem_of_due? (due : w.due? = some (t, l)) :
    l ∈ w.loops ∧ l.phase.wake? = some t ∧
      ∀ l' ∈ w.loops, ∀ t', l'.phase.wake? = some t' → t ≤ t' := by
  obtain ⟨hmem, -, hleast⟩ := (foldl_sooner _ none).2 _ due
  obtain ⟨l', hl', hwake⟩ := List.mem_filterMap.1 (hmem.resolve_left (by simp))
  obtain ⟨t', ht', heq⟩ := Option.map_eq_some_iff.1 hwake
  cases heq
  refine ⟨hl', ht', fun l'' hl'' t'' ht'' => hleast (t'', l'') ?_⟩
  exact List.mem_filterMap.2 ⟨l'', hl'', by rw [ht'']; rfl⟩

theorem wake?_of_due?_eq_none (due : w.due? = none) : ∀ l ∈ w.loops, l.phase.wake? = none := by
  intro l hl
  have hnil := ((foldl_sooner _ none).1 due).2
  cases hwake : l.phase.wake? with
  | none => rfl
  | some t =>
    have hmem : (t, l) ∈ w.loops.filterMap fun l => l.phase.wake?.map (·, l) :=
      List.mem_filterMap.2 ⟨l, hl, by rw [hwake]; rfl⟩
    rw [hnil] at hmem
    cases hmem

@[simp] theorem due?_nil (hloops : w.loops = []) : w.due? = none := by
  simp [due?, hloops]

theorem next?_of_due? (due : w.due? = some (t, l)) :
    w.next? limit = if max w.now t ≤ limit then some ((w.takeUp t l).step l) else none := by
  rw [next?, due]

/-- What is not done up to a time is due later. -/
theorem lt_of_next?_eq_none (idle : w.next? limit = none) (le : w.now ≤ limit) :
    ∀ l ∈ w.loops, ∀ t, l.phase.wake? = some t → limit < t := by
  intro l hl t hwake
  cases due : w.due? with
  | none =>
    rw [wake?_of_due?_eq_none due l hl] at hwake
    cases hwake
  | some first =>
    obtain ⟨-, -, hleast⟩ := mem_of_due? due
    have hfirst := hleast l hl t hwake
    rw [next?_of_due? due] at idle
    split at idle
    · cases idle
    · omega

end Watcher

end CodeIndex.Watch
