import CodeIndex.Proofs.Index.Tracking
import Mathlib.Data.List.Basic

/-! Calls at the same time do what the same calls do one after the other, in the order in which they
took their locks.  The identifiers come from the same supply, in another order. -/

namespace CodeIndex.Index

open Files (Entry)
open Store (Collection Latest Memory Metadata Record)

theorem inTurn_append (o : Chunk.Options) (cs ds : List Caller) (w : World Memory) :
    inTurn o (cs ++ ds) w =
      ((inTurn o cs w).1 ++ (inTurn o ds (inTurn o cs w).2).1,
        (inTurn o ds (inTurn o cs w).2).2) := by
  induction cs generalizing w with
  | nil => rfl
  | cons c cs ih =>
    simp only [List.cons_append, inTurn, ih]

/-- What the exchange of a file's records leaves, as the records that were stored last. -/
theorem Track.follows_swapped {start m : Memory} {f : Latest} {name path : String}
    {c : Collection} {rs : List Record} (h : start.Follows m f)
    (hc : m.collections.get? name = some c) (hrs : c.Fits path rs) :
    start.Follows (m.set name (swapped m c path rs)) (f.update name path (stored m rs)) := by
  have hwithout := h.withoutFile hc path
  cases hrefusal : m.refusal rs with
  | some e =>
    rw [swapped, stored, hrefusal]
    exact hwithout
  | none =>
    have hinserted := hwithout.insertAll Memory.get?_set_self (hrs.withoutFile path)
      Collection.forFile_withoutFile_self
    rw [Memory.set_set, Latest.update_update] at hinserted
    rw [swapped, stored, hrefusal]
    exact hinserted

/-! ### The supply of identifiers -/

/-- Numbers in another order: first those that come before `first`, then those of a list, then others
that are greater than all of them. -/
def reorder (first : Nat) (drawn : List Nat) (bound i : Nat) : Nat :=
  if i < first then i else (drawn[i - first]?).getD (i + bound)

section

variable {first bound : Nat} {drawn : List Nat}

theorem le_reorder (hrange : ∀ i ∈ drawn, first ≤ i ∧ i < bound) {i : Nat} (hi : first ≤ i) :
    first ≤ reorder first drawn bound i := by
  rw [reorder, if_neg (Nat.not_lt.2 hi)]
  cases hget : drawn[i - first]? with
  | none =>
    rw [Option.getD_none]
    omega
  | some n => exact (hrange n (List.mem_of_getElem? hget)).1

theorem reorder_injective (hrange : ∀ i ∈ drawn, first ≤ i ∧ i < bound) (hnodup : drawn.Nodup) :
    Function.Injective (reorder first drawn bound) := by
  intro i j hsame
  by_cases hi : i < first <;> by_cases hj : j < first
  · rwa [reorder, reorder, if_pos hi, if_pos hj] at hsame
  · have := le_reorder hrange (Nat.not_lt.1 hj)
    rw [reorder, if_pos hi] at hsame
    omega
  · have := le_reorder hrange (Nat.not_lt.1 hi)
    rw [hsame, reorder, if_pos hj] at this
    omega
  · rw [reorder, reorder, if_neg hi, if_neg hj] at hsame
    cases hgi : drawn[i - first]? with
    | none =>
      cases hgj : drawn[j - first]? with
      | none =>
        rw [hgi, hgj, Option.getD_none, Option.getD_none] at hsame
        omega
      | some n =>
        rw [hgi, hgj, Option.getD_none, Option.getD_some] at hsame
        have := (hrange n (List.mem_of_getElem? hgj)).2
        omega
    | some m =>
      cases hgj : drawn[j - first]? with
      | none =>
        rw [hgi, hgj, Option.getD_none, Option.getD_some] at hsame
        have := (hrange m (List.mem_of_getElem? hgi)).2
        omega
      | some n =>
        rw [hgi, hgj, Option.getD_some, Option.getD_some] at hsame
        obtain ⟨hlt, -⟩ := List.getElem?_eq_some_iff.1 hgi
        have hplace := (List.getElem?_inj hlt hnodup).1 (hgi.trans (hsame ▸ hgj.symm))
        omega

/-- Whoever comes after the first of those who drew gets what it drew. -/
theorem nextIds_reorder {v : World Memory} {ids : Nat → String} {before mine after : List Nat}
    (hids : v.ids = ids ∘ reorder first drawn bound) (hdrawn : drawn = before ++ (mine ++ after))
    (hused : v.used = first + before.length) :
    v.nextIds mine.length = mine.map ids := by
  refine List.ext_getElem (by simp) fun i hi hmine => ?_
  rw [List.length_map] at hmine
  have hget : drawn[before.length + i]? = some mine[i] := by
    rw [hdrawn, List.getElem?_append_right (Nat.le_add_right _ _), Nat.add_sub_cancel_left,
      List.getElem?_append_left hmine, List.getElem?_eq_getElem hmine]
  have hplace : reorder first drawn bound (v.used + i) = mine[i] := by
    rw [reorder, if_neg (by omega), hused, show first + before.length + i - first =
      before.length + i by omega, hget, Option.getD_some]
  simp only [World.nextIds, List.getElem_map, List.getElem_range', Nat.one_mul, hids,
    Function.comp_apply, hplace]

end

theorem World.FreshIds.reorder {w : World Memory} (h : w.FreshIds) {drawn : List Nat} {bound : Nat}
    (hrange : ∀ i ∈ drawn, w.used ≤ i ∧ i < bound) (hnodup : drawn.Nodup) :
    FreshIds { w with ids := w.ids ∘ Index.reorder w.used drawn bound } where
  distinct _ _ hi hj hsame := reorder_injective hrange hnodup
    (h.distinct _ _ (le_reorder hrange hi) (le_reorder hrange hj) hsame)
  unknown name c hc r hr _ hi := h.unknown name c hc r hr _ (le_reorder hrange hi)

/-! ### Callers that are done -/

namespace Track

variable {o : Chunk.Options} {w : World Memory} {t : Track}

theorem exists_left_of_isDone (h : (t.caller o).isDone = true) :
    ∃ outcome, t.phase = .left outcome := by
  have hrest : (t.caller o).rest = t.phase.job o t.name t.path := rfl
  rw [Caller.isDone, hrest] at h
  cases hphase : t.phase with
  | idle => rw [hphase] at h; cases h
  | queued lock => rw [hphase] at h; cases h
  | leaving lock outcome => rw [hphase] at h; cases h
  | left outcome => exact ⟨outcome, rfl⟩
  | inside lock progress =>
    rw [hphase, Phase.job] at h
    cases hpending : progress.pending o t.name t.path with
    | some pending =>
      obtain ⟨action, next⟩ := pending
      rw [Progress.job_of_pending hpending] at h
      cases h
    | none =>
      cases progress with
      | finished outcome => cases h
      | _ => cases hpending

def outcome (t : Track) : Except IndexError FileReport :=
  match t.phase with
  | .left outcome => outcome
  | _ => .ok {}

end Track

namespace Tracked

variable {o : Chunk.Options} {w : World Memory} {s : System} {g : Nat → Track}

theorem init (o : Chunk.Options) (w : World Memory) (calls : List (String × String)) :
    ∃ g, Tracked o w (System.start o w calls) g := ⟨_, .start o w calls⟩

/-- The identifiers that callers have drawn, one caller after the other. -/
def drawnBy (g : Nat → Track) (order : List Nat) : List Nat := order.flatMap fun k => (g k).drawn

/-- The world in which the calls are carried out one after the other. -/
def reordered (w : World Memory) (s : System) (g : Nat → Track) : World Memory :=
  { w with ids := w.ids ∘ reorder w.used (drawnBy g s.order) s.world.used }

/-- A world that is reached by some calls, carried out one after the other. -/
structure Reached (w : World Memory) (s : System) (g : Nat → Track) (earlier : List Nat)
    (v : World Memory) : Prop where
  ids : v.ids = (reordered w s g).ids
  used : v.used = w.used + (drawnBy g earlier.reverse).length
  fresh : v.FreshIds
  follows : w.state.Follows v.state
    (latest (fun k => (g k).slot) (fun k => (g k).effect) earlier)

namespace Reached

variable {k : Nat} {later earlier : List Nat} {v : World Memory}

theorem nextIds (hv : Reached w s g earlier v) (htaken : s.taken = later ++ k :: earlier) :
    v.nextIds (g k).drawn.length = (g k).drawn.map w.ids := by
  have hall : drawnBy g s.order = drawnBy g earlier.reverse ++
      ((g k).drawn ++ drawnBy g later.reverse) := by
    simp [drawnBy, System.order, htaken]
  exact nextIds_reorder hv.ids hall hv.used

theorem used_cons (hv : Reached w s g earlier v) :
    w.used + (drawnBy g (k :: earlier).reverse).length = v.used + (g k).drawn.length := by
  rw [hv.used]
  simp [drawnBy, Nat.add_assoc]

theorem forFile_length (h : Tracked o w s g) (hv : Reached w s g earlier v)
    (htaken : s.taken = later ++ k :: earlier) {d : Collection}
    (hd : v.state.collections.get? (g k).name = some d) :
    (d.forFile (g k).path).length = (g k).prior.length := by
  have hrecords := hv.follows.records (g k).name (g k).path
  rw [Memory.fileRecords_eq hd] at hrecords
  rw [hrecords.length_eq, h.ledger.prior_eq k later earlier htaken]
  rfl

/-- The world in which the next call is carried out. -/
def around (v : World Memory) (t : Track) : World Memory :=
  { v with services := .memory t.embed, files := t.files }

theorem keep (hv : Reached w s g earlier v) {outcome : Except IndexError FileReport}
    (hplan : (g k).plan o w = .keep outcome) (huntouched : (g k).Untouched) :
    ∃ v', World.finish (reconcileFile o (g k).name (g k).path) (around v (g k)) = (outcome, v') ∧
      Reached w s g (k :: earlier) v' := by
  rw [Track.plan, ← hv.follows.contains_eq] at hplan
  obtain ⟨locks, hfinish⟩ := World.finish_reconcileFile_keep (w := around v (g k)) rfl hplan
  refine ⟨_, hfinish, hv.ids, ?_, ⟨hv.fresh.distinct, hv.fresh.unknown⟩, ?_⟩
  · rw [hv.used_cons, huntouched.1]
    rfl
  · rw [latest_cons_of_none huntouched.2]
    exact hv.follows

theorem swap (h : Tracked o w s g) (hv : Reached w s g earlier v)
    (htaken : s.taken = later ++ k :: earlier) {rs : List Record} (hready : (g k).Ready o w rs)
    (heffect : (g k).effect = some (Track.stored w.state rs)) :
    ∃ v', World.finish (reconcileFile o (g k).name (g k).path) (around v (g k)) =
        (swapOutcome w.state rs (g k).prior.length, v') ∧
      Reached w s g (k :: earlier) v' := by
  obtain ⟨d, hd⟩ : ∃ d, v.state.collections.get? (g k).name = some d := by
    refine Memory.contains_eq_true_iff.1 ?_
    rw [hv.follows.contains_eq]
    exact hready.contains
  have hids : rs.map Record.id = v.nextIds (g k).drawn.length := by
    rw [hready.ids, hv.nextIds htaken]
  have hfits : d.Fits (g k).path rs := hv.fresh.fits hd hids hready.filePath
  have hrefusal : v.state.refusal rs = w.state.refusal rs := by
    rw [Memory.refusal, Memory.refusal, hv.follows.denseSize]
  have hpath := hready.filePath
  obtain ⟨file, pairs, hplan, hlength, hrs⟩ := hready
  rw [Track.plan, ← hv.follows.contains_eq] at hplan
  obtain ⟨locks, hfinish⟩ := World.finish_reconcileFile_swap (w := around v (g k)) rfl hd hplan
  have hrecords : recordsUnder file pairs ((around v (g k)).nextIds pairs.length) = rs := by
    rw [hrs, ← hv.nextIds htaken, hlength]
    rfl
  rw [hrecords, hv.forFile_length h htaken hd] at hfinish
  refine ⟨_, hfinish.trans (congrArg (·, _) ?_), hv.ids, ?_, ?_, ?_⟩
  · show swapOutcome v.state rs _ = _
    rw [swapOutcome, swapOutcome, hrefusal]
  · rw [hv.used_cons, hlength]
    rfl
  · have hfresh := hv.fresh.swapped hd hids hpath locks
    rw [hlength] at hfresh
    exact ⟨hfresh.distinct, hfresh.unknown⟩
  · have hfollows := Track.follows_swapped hv.follows hd hfits
    have hstored : Track.stored v.state rs = Track.stored w.state rs := by
      rw [Track.stored, Track.stored, hrefusal]
    rw [hstored] at hfollows
    rw [latest_cons_of_some heffect]
    exact hfollows

end Reached

theorem nodup_drawnBy (h : Tracked o w s g) : (drawnBy g s.order).Nodup := by
  rw [drawnBy, List.nodup_iff_pairwise_ne, List.pairwise_flatMap]
  refine ⟨fun k _ => List.nodup_iff_pairwise_ne.1 (h.drawn.nodup k), ?_⟩
  rw [System.order, List.pairwise_reverse]
  refine List.Pairwise.imp ?_ (List.nodup_iff_pairwise_ne.1 h.ledger.nodup)
  rintro j k hne i hi _ hj rfl
  exact hne (h.drawn.apart j k i hj hi)

theorem range_drawnBy (h : Tracked o w s g) :
    ∀ i ∈ drawnBy g s.order, w.used ≤ i ∧ i < s.world.used := by
  intro i hi
  obtain ⟨k, -, hk⟩ := List.mem_flatMap.1 hi
  exact h.drawn.range k i hk

/-- Calls that are done, carried out one after the other in the order of their locks, come to what
they came to among the others. -/
theorem inTurn_earlier (h : Tracked o w s g) (hfresh : w.FreshIds)
    (hleft : ∀ k ∈ s.taken, ∃ outcome, (g k).phase = .left outcome) (earlier later : List Nat)
    (htaken : s.taken = later ++ earlier) :
    ∃ v, inTurn o (earlier.reverse.map fun k => (g k).caller o) (reordered w s g) =
        (earlier.reverse.map fun k => (g k).outcome, v) ∧ Reached w s g earlier v := by
  induction earlier generalizing later with
  | nil =>
    exact ⟨_, rfl, rfl, rfl, hfresh.reorder h.range_drawnBy h.nodup_drawnBy,
      Memory.Follows.refl _⟩
  | cons k earlier ih =>
    obtain ⟨v, hrun, hv⟩ := ih (later ++ [k]) (by rw [htaken, List.append_assoc]; rfl)
    obtain ⟨outcome, hphase⟩ := hleft k (htaken ▸ List.mem_append_right _ List.mem_cons_self)
    have hvalid := h.valid k
    rw [Track.Valid, hphase] at hvalid
    have hnext : ∃ v', World.finish (reconcileFile o (g k).name (g k).path)
        (Reached.around v (g k)) = (outcome, v') ∧ Reached w s g (k :: earlier) v' := by
      rcases hvalid with ⟨hkeep, huntouched⟩ | ⟨rs, hready, rfl, heffect⟩
      · exact hv.keep hkeep huntouched
      · exact Reached.swap h hv htaken hready heffect
    obtain ⟨v', hfinish, hv'⟩ := hnext
    have hlast : inTurn o [(g k).caller o] v = ([(g k).outcome], v') := by
      have hcall : World.finish (reconcileFile o ((g k).caller o).name ((g k).caller o).path)
          { v with services := .memory ((g k).caller o).embed, files := ((g k).caller o).files } =
          (outcome, v') := hfinish
      rw [inTurn, hcall, Track.outcome, hphase]
      rfl
    refine ⟨v', ?_, hv'⟩
    rw [List.reverse_cons, List.map_append, List.map_append, inTurn_append, hrun]
    simp only [List.map_cons, List.map_nil, hlast]

/-- Each file has what one of its callers has stored, or what it had at the start. -/
theorem fileRecords_of_left (h : Tracked o w s g)
    (hleft : ∀ k ∈ s.taken, ∃ outcome, (g k).phase = .left outcome) (name path : String) :
    (s.world.state.fileRecords name path).Perm (w.state.fileRecords name path) ∨
      ∃ k ∈ s.taken, (g k).slot = (name, path) ∧ ∃ rs, (g k).Ready o w rs ∧
        (s.world.state.fileRecords name path).Perm (Track.stored w.state rs) ∧
        (g k).phase = .left (swapOutcome w.state rs (g k).prior.length) := by
  have hrecords := h.ledger.follows.records name path
  cases hlatest : latest (fun k => (g k).slot) (fun k => (g k).effect) s.taken name path with
  | none =>
    rw [hlatest] at hrecords
    exact .inl hrecords
  | some stored =>
    rw [hlatest] at hrecords
    obtain ⟨k, hk, hslot, heffect⟩ := exists_of_latest_eq_some hlatest
    obtain ⟨outcome, hphase⟩ := hleft k hk
    have hvalid := h.valid k
    rw [Track.Valid, hphase] at hvalid
    rcases hvalid with ⟨-, -, hnone⟩ | ⟨rs, hready, rfl, hstored⟩
    · rw [hnone] at heffect
      cases heffect
    · rw [hstored] at heffect
      obtain rfl := Option.some.inj heffect
      exact .inr ⟨k, hk, hslot, rs, hready, hrecords, hphase⟩

/-- When all callers are done, those who took a lock are the callers. -/
theorem left_of_done (h : Tracked o w s g) (hdone : ∀ c ∈ s.callers, c.isDone = true) {k : Nat}
    (hk : k < s.callers.length) :
    s.callers[k]? = some ((g k).caller o) ∧ ∃ outcome, (g k).phase = .left outcome := by
  have hget := List.getElem?_eq_getElem hk
  have hcaller := h.callers k _ hget
  have hleft := Track.exists_left_of_isDone (hcaller ▸ hdone _ (List.getElem_mem hk))
  rw [hget, hcaller]
  exact ⟨rfl, hleft⟩

theorem mem_taken_of_done (h : Tracked o w s g) (hdone : ∀ c ∈ s.callers, c.isDone = true) {k : Nat}
    (hk : k < s.callers.length) : k ∈ s.taken := by
  obtain ⟨-, outcome, hleft⟩ := h.left_of_done hdone hk
  rw [h.entered, hleft]
  rfl

/-- When all callers are done, each of them has taken a lock, and no more than one. -/
theorem order_perm_of_done (h : Tracked o w s g) (hdone : ∀ c ∈ s.callers, c.isDone = true)
    (hlt : ∀ k ∈ s.taken, k < s.callers.length) :
    s.order.Perm (List.range s.callers.length) := by
  have hnodup : s.order.Nodup := (List.reverse_perm s.taken).nodup_iff.2 h.ledger.nodup
  refine (List.perm_ext_iff_of_nodup hnodup List.nodup_range).2 fun k => ?_
  rw [System.order, List.mem_reverse, List.mem_range]
  exact ⟨hlt k, h.mem_taken_of_done hdone⟩

end Tracked

/-- However calls are mixed with each other, and however the files and the embedder change
meanwhile: when all are done, the store is as if they had been carried out one after the other, in
the order in which they took their locks and each with the file that it read, and the same came of
each of them.  Only the identifiers are given out in another order.  Every file has the records that
it had at the start, or those of one call; it has none if the store refused them. -/
theorem interleaving_serializable {o : Chunk.Options} {w : World Memory}
    {calls : List (String × String)} {turns : List Turn} {s : System} (hfresh : w.FreshIds)
    (hs : s = (System.start o w calls).run turns) (hdone : ∀ c ∈ s.callers, c.isDone = true) :
    s.callers.map Caller.slot = calls ∧ s.order.Perm (List.range calls.length) ∧
    (∃ π : Nat → Nat, Function.Injective π ∧ (∀ i, w.used ≤ i → w.used ≤ π i) ∧
      ∃ outcomes last,
        inTurn o (s.order.filterMap (s.callers[·]?)) { w with ids := w.ids ∘ π } =
          (outcomes, last) ∧
        last.state = s.world.state ∧
        (s.order.filterMap (s.callers[·]?)).map Caller.rest = outcomes.map .done) ∧
    ∀ name path, (s.world.state.fileRecords name path).Perm (w.state.fileRecords name path) ∨
      ∃ c ∈ s.callers, c.slot = (name, path) ∧ ∃ file pairs ids,
        plan o name path (w.state.contains name) (readSource c.files path) c.embed =
          .swap file pairs ∧
        ids.length = pairs.length ∧
        ((s.world.state.fileRecords name path).Perm (recordsUnder file pairs ids) ∨
          ∃ e, c.rest = .done (.error (.store e)) ∧ s.world.state.fileRecords name path = []) := by
  obtain ⟨g₀, h₀⟩ := Tracked.init o w calls
  obtain ⟨g, -, h⟩ := h₀.run hfresh turns
  rw [← hs] at h
  have hlength : s.callers.length = calls.length := by
    rw [hs, System.length_callers_run, System.start, List.length_map]
  have hlt : ∀ k ∈ s.taken, k < s.callers.length := by
    intro k hk
    rw [hs] at hk
    rcases System.mem_taken_run _ turns hk with hk | hk
    · exact absurd hk List.not_mem_nil
    · rwa [← System.length_callers_run _ turns, ← hs] at hk
  have hleft : ∀ k ∈ s.taken, ∃ outcome, (g k).phase = .left outcome := fun k hk =>
    (h.left_of_done hdone (hlt k hk)).2
  have hcallers : s.order.filterMap (s.callers[·]?) = s.order.map fun k => (g k).caller o := by
    refine List.filterMap_eq_map_iff_forall_eq_some.2 fun k hk => ?_
    exact (h.left_of_done hdone (hlt k (List.mem_reverse.1 hk))).1
  refine ⟨?_, ?_, ?_, ?_⟩
  · rw [hs, System.slots_run, System.start, List.map_map]
    exact List.map_id _
  · exact hlength ▸ h.order_perm_of_done hdone hlt
  · obtain ⟨last, hrun, hlast⟩ := h.inTurn_earlier hfresh hleft s.taken [] rfl
    refine ⟨_, reorder_injective h.range_drawnBy h.nodup_drawnBy,
      fun i => le_reorder h.range_drawnBy, s.order.map fun k => (g k).outcome, last, ?_, ?_, ?_⟩
    · rw [hcallers]
      exact hrun
    · exact hlast.follows.unique h.ledger.follows
    · rw [hcallers, List.map_map, List.map_map]
      refine List.map_congr_left fun k hk => ?_
      obtain ⟨outcome, hphase⟩ := hleft k (List.mem_reverse.1 hk)
      simp only [Function.comp_apply, Track.caller, Track.outcome, hphase, Phase.job]
  · intro name path
    rcases h.fileRecords_of_left hleft name path with
      hsame | ⟨k, hk, hslot, rs, hready, hrecords, hphase⟩
    · exact .inl hsame
    · obtain ⟨hget, -⟩ := h.left_of_done hdone (hlt k hk)
      obtain ⟨hname, hpath⟩ := Prod.mk.inj hslot
      obtain ⟨file, pairs, hplan, hcount, hrs⟩ := hready
      refine .inr ⟨(g k).caller o, List.mem_of_getElem? hget, hslot, file, pairs,
        (g k).drawn.map w.ids, ?_, ?_, ?_⟩
      · rw [← hname, ← hpath]
        exact hplan
      · rw [List.length_map, hcount]
      · cases hrefusal : w.state.refusal rs with
        | some e =>
          rw [Track.stored, hrefusal] at hrecords
          rw [swapOutcome, hrefusal] at hphase
          refine .inr ⟨e, ?_, List.perm_nil.1 hrecords⟩
          rw [Track.caller, hphase]
          rfl
        | none =>
          rw [Track.stored, hrefusal] at hrecords
          exact .inl (hrs ▸ hrecords)

/-- Two calls for one file.  The second asks for the lock while the first holds it, and gets it when
the first has exchanged the records. -/
def twoCallers : System :=
  (System.start {} World.overwrittenFile [("code", "a.js"), ("code", "a.js")]).run
    ([0, 1, 0, 1, 0, 0, 0, 1, 0, 0, 0, 0, 0, 1, 0, 1, 1, 1, 1, 1, 1, 1, 1, 1, 1].map fun k =>
      ⟨k, World.overwrittenFile.files, World.emptyVectors⟩)

/-- The second call removes the record of the first. -/
theorem interleaving_serializable_twoCallers :
    (∀ c ∈ twoCallers.callers, c.isDone = true) ∧ twoCallers.order = [0, 1] ∧
      twoCallers.callers.map Caller.report? =
        [some { fragments := 1, removed := 1 }, some { fragments := 1, removed := 1 }] ∧
      ((twoCallers.world.state.fileRecords "code" "a.js").map Record.id) = ["x"] ∧
      ∃ π : Nat → Nat, ∃ outcomes last,
        inTurn {} (twoCallers.order.filterMap (twoCallers.callers[·]?))
            { World.overwrittenFile with ids := World.overwrittenFile.ids ∘ π } =
          (outcomes, last) ∧
        last.state = twoCallers.world.state := by
  have hdone : ∀ c ∈ twoCallers.callers, c.isDone = true := by
    simp only [twoCallers, System.start, reconcileFile, replace, fragmentsOf_eq_known]
    exact List.all_eq_true.1 (by decide +kernel)
  obtain ⟨-, -, ⟨π, -, -, outcomes, last, hrun, hlast, -⟩, -⟩ :=
    interleaving_serializable World.freshIds_overwrittenFile (by rw [twoCallers]) hdone
  refine ⟨hdone, ?_, ?_, ?_, π, outcomes, last, hrun, hlast⟩
  all_goals
    simp only [twoCallers, System.start, reconcileFile, replace, fragmentsOf_eq_known]
    decide +kernel

end CodeIndex.Index
