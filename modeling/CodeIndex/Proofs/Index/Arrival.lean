import CodeIndex.Proofs.Index.Tracking

/-! Calls that begin while others are at work.  Whoever comes keeps no lock yet, and nothing is known
of it to those who are there. -/

namespace CodeIndex.Index

open Store (Memory Record)

/-- Clients that keep no lock may turn to another key. -/
theorem Guarded.rekey {l : Locks} {key other : Nat → String} {kept held : Nat → Option LockId}
    (h : Guarded l key kept held) (hsame : ∀ k, kept k ≠ none → other k = key k) :
    Guarded l other kept held where
  known k lock hk := by
    rw [hsame k (by simp [hk])]
    exact h.known k lock hk
  counted := h.counted
  kept_of_held := h.kept_of_held
  taken := h.taken
  sole := h.sole

/-- Clients that have not taken a turn may turn to another file. -/
theorem Ledger.reslot {start m : Memory} {slot other : Nat → String × String} {busy : Nat → Prop}
    {prior : Nat → List Record} {effect : Nat → Option (List Record)} {taken : List Nat}
    (h : Ledger start m slot busy prior effect taken) (hsame : ∀ k ∈ taken, other k = slot k) :
    Ledger start m other busy prior effect taken := by
  have hlatest : ∀ earlier : List Nat, (∀ k ∈ earlier, k ∈ taken) →
      latest other effect earlier = latest slot effect earlier := by
    intro earlier hearlier
    funext name path
    induction earlier with
    | nil => rfl
    | cons k earlier ih =>
      have hrest := ih fun j hj => hearlier j (List.mem_cons_of_mem _ hj)
      unfold latest at hrest ⊢
      rw [List.findSome?_cons, List.findSome?_cons, hsame k (hearlier k List.mem_cons_self), hrest]
  refine ⟨h.nodup, h.mem_of_busy, h.none_of_not_mem, ?_, ?_, ?_⟩
  · refine h.alone.imp_of_mem fun hj hk himp hslot => himp ?_
    rwa [hsame _ hj, hsame _ hk] at hslot
  · intro k later earlier hsplit
    have hmem : ∀ j ∈ k :: earlier, j ∈ taken := fun j hj =>
      hsplit ▸ List.mem_append_right later hj
    rw [hlatest earlier fun j hj => hmem j (List.mem_cons_of_mem _ hj),
      hsame k (hmem k List.mem_cons_self)]
    exact h.prior_eq k later earlier hsplit
  · rw [hlatest taken fun _ hk => hk]
    exact h.follows

/-- One more call, which has not begun. -/
def System.spawn (o : Chunk.Options) (s : System) (name path : String) : System :=
  { s with
    callers := s.callers ++ [⟨name, path, s.world.files, fun _ => .ok [], reconcileFile o name path⟩] }

variable {o : Chunk.Options} {w : World Memory} {s : System} {g : Nat → Track}

/-- A caller that has not begun may be given another file. -/
theorem Tracked.assign (h : Tracked o w s g) {k : Nat} {t : Track} (hk : (g k).phase = .idle)
    (hidle : t.phase = .idle) (hdrawn : t.drawn = (g k).drawn) (hprior : t.prior = (g k).prior)
    (heffect : t.effect = (g k).effect) {callers : List Caller}
    (hcallers : ∀ j c, callers[j]? = some c → c = (Function.update g k t j).caller o) :
    Tracked o w { s with callers } (Function.update g k t) := by
  have hphase : t.phase = (g k).phase := hidle.trans hk.symm
  have hvalid := h.valid k
  rw [Track.Valid, hk] at hvalid
  refine ⟨hcallers, h.valid_update ?_, h.ids, ?_, ?_, ?_, ?_⟩
  · rw [Track.Valid, hidle]
    exact ⟨hdrawn.trans hvalid.1, heffect.trans hvalid.2⟩
  · rw [read_update_same Track.drawn hdrawn]
    exact h.drawn
  · rw [read_update_same (fun t => t.phase.kept) (congrArg Phase.kept hphase),
      read_update_same (fun t => t.phase.held) (congrArg Phase.held hphase)]
    refine h.guarded.rekey fun j hj => ?_
    have hne : j ≠ k := by
      rintro rfl
      rw [hk] at hj
      exact hj rfl
    rw [Function.update_of_ne hne]
  · intro j
    have hentered := congrFun
      (read_update_same (fun t => t.phase.entered) (congrArg Phase.entered hphase)) j
    exact (h.entered j).trans (iff_of_eq (congrArg (· = true) hentered.symm))
  · rw [read_update_same (fun t => t.phase.held ≠ none) (by rw [hphase]),
      read_update_same Track.prior hprior, read_update_same Track.effect heffect]
    refine h.ledger.reslot fun j hj => ?_
    have hne : j ≠ k := by
      rintro rfl
      rw [h.entered, hk] at hj
      cases hj
    rw [Function.update_of_ne hne]

/-- The callers at work are on their tracks, and those who are to come have not begun. -/
structure Followed (o : Chunk.Options) (w : World Memory) (s : System) (g : Nat → Track) : Prop where
  tracked : Tracked o w s g
  idle : ∀ k, s.callers.length ≤ k → (g k).phase = .idle

namespace Followed

theorem lt_of_mem_taken (h : Followed o w s g) {k : Nat} (hk : k ∈ s.taken) :
    k < s.callers.length := by
  refine Nat.lt_of_not_le fun hle => ?_
  rw [h.tracked.entered, h.idle k hle] at hk
  cases hk

theorem start (o : Chunk.Options) (w : World Memory) (calls : List (String × String)) :
    ∃ g, Followed o w (System.start o w calls) g := ⟨_, .start o w calls, fun _ _ => rfl⟩

theorem step (hfresh : w.FreshIds) (h : Followed o w s g) (turn : Turn) :
    ∃ g', Followed o w (s.step turn) g' := by
  obtain ⟨t, -, hsame, ht⟩ := h.tracked.step hfresh turn
  refine ⟨_, ht, fun k hk => ?_⟩
  rw [s.length_callers_step turn] at hk
  by_cases hkt : k = turn.caller
  · subst hkt
    rw [Function.update_self, hsame hk]
    exact h.idle _ hk
  · rw [Function.update_of_ne hkt]
    exact h.idle k hk

theorem spawn (h : Followed o w s g) (name path : String) :
    ∃ g', Followed o w (s.spawn o name path) g' := by
  have hidle := h.idle _ (Nat.le_refl s.callers.length)
  refine ⟨_, h.tracked.assign (t := { g s.callers.length with
    name, path, files := s.world.files, embed := fun _ => .ok [], phase := .idle })
    hidle rfl rfl rfl rfl fun k c hk => ?_, fun k hk => ?_⟩
  · by_cases hlast : k = s.callers.length
    · subst hlast
      rw [List.getElem?_concat_length] at hk
      obtain rfl := Option.some.inj hk
      rw [Function.update_self]
      rfl
    · rw [Function.update_of_ne hlast]
      refine h.tracked.callers k c ?_
      rw [List.getElem?_append] at hk
      split at hk
      · exact hk
      · next hge =>
        rw [List.getElem?_singleton, if_neg (by omega)] at hk
        cases hk
  · rw [System.spawn, List.length_append, List.length_singleton] at hk
    rw [Function.update_of_ne (by omega)]
    exact h.idle k (by omega)

end Followed

end CodeIndex.Index
