import CodeIndex.Proofs.Index.Ending
import CodeIndex.Proofs.Index.Serial

/-! What the pipeline comes to.  After its last report a file is read as it is now by every call that
takes its lock from then on, and the reindexer begins such a call.  When nothing is left to do, the file
therefore has the records of its fragments, whatever else was going on. -/

namespace CodeIndex.Index

open Files (Entry IoError)
open Store (Collection Memory Metadata Record)

/-! ### Calls that have read their file -/

/-- The action comes before a call has read its file. -/
def Action.opens : Action → Bool
  | .obtainLock .. => true
  | .acquire _ => true
  | .store (.contains _) => true
  | .read _ => true
  | _ => false

/-- The call has read its file. -/
def Caller.hasRead (c : Caller) : Bool :=
  match c.rest with
  | .done _ => true
  | .ask action _ => !action.opens

theorem Caller.files_meet {action : Action} (h : action.opens = false) (c : Caller) (t : Turn) :
    (c.meet t action).files = c.files := by
  cases action with
  | read path => cases h
  | _ => rfl

theorem Caller.hasRead_of_ask {c : Caller} {action : Action}
    {next : action.Answer → Job (Except IndexError FileReport)} (h : c.rest = .ask action next) :
    c.hasRead = !action.opens := by
  rw [hasRead, h]

namespace Tracked

variable {o : Chunk.Options} {w : World Memory} {s : System} {g : Nat → Track} {k : Nat}

/-- Of the actions before a call has read its file only the reading itself leads on. -/
theorem hasRead_next (h : Tracked o w s g) {turn : Turn} {c : Caller}
    (hc : s.callers[turn.caller]? = some c) (hpresent : w.state.contains c.name = true)
    {action : Action} {next : action.Answer → Job (Except IndexError FileReport)}
    (hrest : c.rest = .ask action next) (hopens : action.opens = true)
    (hread : Caller.hasRead { c.meet turn action with
      rest := next (World.carryOut action (s.around turn)).1 } = true) :
    (c.meet turn action).files = turn.files := by
  have hfirst := congrArg Caller.rest (h.callers _ c hc)
  have hname := congrArg Caller.name (h.callers _ c hc)
  rw [hrest] at hfirst
  cases hphase : (g turn.caller).phase with
  | idle =>
    rw [Track.caller, hphase] at hfirst
    cases hfirst
    cases hread
  | queued lock =>
    rw [Track.caller, hphase] at hfirst
    cases hfirst
    cases hread
  | leaving lock outcome =>
    rw [Track.caller, hphase] at hfirst
    cases hfirst
    cases hopens
  | left outcome =>
    rw [Track.caller, hphase] at hfirst
    cases hfirst
  | inside lock progress =>
    cases progress with
    | check =>
      have hask := h.rest_of_pending hc hphase rfl
      rw [hrest] at hask
      cases hask
      have hfound : (World.carryOut (.store (.contains (g turn.caller).name)) (s.around turn)).1 =
          .ok true := by
        rw [hname] at hpresent
        rw [← hpresent]
        exact congrArg Except.ok (h.ledger.follows.contains_eq _)
      rw [hfound] at hread
      cases hread
    | read =>
      have hask := h.rest_of_pending hc hphase rfl
      rw [hrest] at hask
      cases hask
      rfl
    | finished outcome =>
      rw [Track.caller, hphase] at hfirst
      cases hfirst
      cases hopens
    | _ =>
      have hask := h.rest_of_pending hc hphase rfl
      rw [hrest] at hask
      cases hask
      cases hopens

/-- A call that has read its file after a step has read it by that step, or before it. -/
theorem hasRead_step (h : Tracked o w s g) {turn : Turn} {c : Caller}
    (hc : (s.step turn).callers[turn.caller]? = some c) (hpresent : w.state.contains c.name = true)
    (hread : c.hasRead = true) :
    c.files = turn.files ∨ ∃ before, s.callers[turn.caller]? = some before ∧
      before.slot = c.slot ∧ before.hasRead = true ∧ c.files = before.files := by
  rcases s.step_cases turn with hsame | ⟨before, action, next, hbefore, hrest, -, hstep⟩
  · rw [hsame] at hc
    exact .inr ⟨c, hc, rfl, hread, rfl⟩
  · rw [hstep, List.getElem?_set_self (List.getElem?_eq_some_iff.1 hbefore).1] at hc
    obtain rfl := Option.some.inj hc
    have hname : before.name = (before.meet turn action).name := (before.name_meet turn action).symm
    have hpath : before.path = (before.meet turn action).path := (before.path_meet turn action).symm
    cases hopens : action.opens with
    | true => exact .inl (h.hasRead_next hbefore (hname ▸ hpresent) hrest hopens hread)
    | false =>
      refine .inr ⟨before, hbefore, Prod.ext hname hpath, ?_, Caller.files_meet hopens before turn⟩
      rw [Caller.hasRead_of_ask hrest, hopens]
      rfl

end Tracked

/-! ### What a call leaves -/

/-- Records hold the fragments of a file, one each and in their order. -/
def HoldFragments (file : Metadata) (fs : List Chunk.Fragment) (rs : List Record) : Prop :=
  rs.length = fs.length ∧ ∀ (i : Nat) f r, fs[i]? = some f → rs[i]? = some r →
    ∃ dense, HoldsFragment file f dense r

theorem holdFragments_recordsUnder {file : Metadata} {fs : List Chunk.Fragment}
    {vectors : List (Array Float32)} {ids : List String} (hvectors : vectors.length = fs.length)
    (hids : ids.length = (fs.zip vectors).length) :
    HoldFragments file fs (recordsUnder file (fs.zip vectors) ids) := by
  refine ⟨?_, fun i f r hf hr => ?_⟩
  · rw [length_recordsUnder hids, List.length_zip, hvectors, Nat.min_self]
  · have hlt : i < vectors.length := hvectors ▸ (List.getElem?_eq_some_iff.1 hf).1
    exact ⟨vectors[i], holdsFragment_recordsUnder hf (List.getElem?_eq_getElem hlt) hr⟩

namespace Track

variable {o : Chunk.Options} {w : World Memory} {t : Track} {outcome : Except IndexError FileReport}
  {source : SourceFile} {fs : List Chunk.Fragment}

/-- A call that was over without a failure in the embedder or in the store has stored a record for each
fragment of what it read.  Without fragments nothing can fail there. -/
theorem Settled.effect (h : t.Settled o w outcome) (hpresent : w.state.contains t.name = true)
    (hread : readSource t.files t.path = .ok source) (htext : source.text ≠ "")
    (hfs : fragmentsOf o source.text = .ok fs)
    (hembed : fs ≠ [] → ∀ e, outcome ≠ .error (.embed e))
    (hstore : fs ≠ [] → ∀ e, outcome ≠ .error (.store e)) :
    ∃ rs, t.effect = some rs ∧ HoldFragments (fileMetadata t.path source) fs rs := by
  rcases h with ⟨hkeep, -⟩ | ⟨rs, ⟨file, pairs, hplan, hdrawn, hrs⟩, hswap, heffect⟩
  · exfalso
    rw [plan, hpresent, hread, plan_of_text o t.name t.path t.embed htext, hfs, Plan.renewing,
      pairsBy] at hkeep
    cases hvectors : vectorsBy t.embed fs with
    | ok vectors =>
      rw [hvectors] at hkeep
      cases hkeep
    | error e =>
      rw [hvectors] at hkeep
      cases hkeep
      obtain ⟨hne, reason, rfl⟩ := vectorsBy_eq_error hvectors
      exact hembed hne reason rfl
  · obtain ⟨-, other, hother, -, rfl, hpairs⟩ := plan_eq_swap_iff.1 hplan
    obtain rfl : source = other := Except.ok.inj (hread.symm.trans hother)
    obtain ⟨found, vectors, hfound, hvectors, rfl⟩ := pairsBy_eq_ok_iff.1 hpairs
    obtain rfl : fs = found := Except.ok.inj (hfs.symm.trans hfound)
    have hlength := (vectorsBy_eq_ok_iff.1 hvectors).1
    have hholds : HoldFragments (fileMetadata t.path source) fs rs :=
      hrs ▸ holdFragments_recordsUnder hlength (by rw [List.length_map, hdrawn])
    refine ⟨rs, ?_, hholds⟩
    rw [heffect, stored]
    cases hrefusal : w.state.refusal rs with
    | none => rfl
    | some e =>
      have hne : fs ≠ [] := by
        rintro rfl
        rw [List.length_eq_zero_iff.1 hholds.1] at hrefusal
        cases hrefusal
      rw [swapOutcome, hrefusal] at hswap
      exact absurd hswap (hstore hne e)

end Track

namespace Pipeline

variable {o : Chunk.Options} {w : World Memory} {name path : String} {p : Pipeline}
  {found : Except IoError SourceFile} {before : List Nat}

/-- What is read at a path does not change any more, and it was reported: `before` are those who had
taken their locks by then.  Whoever took its lock later has read what there is now, and the reindexer
is still to begin a call for the path or has begun one. -/
structure Since (o : Chunk.Options) (w : World Memory) (name path : String)
    (found : Except IoError SourceFile) (before : List Nat) (p : Pipeline) : Prop where
  followed : ∃ g, Followed o w p.system g
  files : readSource p.files path = found
  taken : before <:+ p.system.taken
  read : ∀ (k : Nat) c, p.system.callers[k]? = some c → k ∉ before → c.slot = (name, path) →
    c.hasRead = true → readSource c.files path = found
  reported : path ∈ p.queue ∨ ∃ k ∈ p.handled, k ∉ before ∧ p.asked k = some (name, path)

namespace Since

theorem spawn (h : Since o w name path found before p) (other file : String) :
    Since o w name path found before { p with system := p.system.spawn o other file } where
  followed := by
    obtain ⟨g, hg⟩ := h.followed
    exact hg.spawn other file
  files := h.files
  taken := h.taken
  read k c hc hk hslot hread := by
    rw [System.spawn, List.getElem?_append] at hc
    split at hc
    · exact h.read k c hc hk hslot hread
    · -- the new call has not begun
      obtain rfl := List.mem_singleton.1 (List.mem_of_getElem? hc)
      cases hread
  reported := by
    refine h.reported.imp_right ?_
    rintro ⟨k, hk, hnew, hasked⟩
    refine ⟨k, hk, hnew, ?_⟩
    obtain ⟨c, hc, -⟩ := Option.map_eq_some_iff.1 hasked
    rwa [asked, asked_spawn p.system file (lt_of_getElem? hc)]

/-- The reindexer takes a report; if it is the one for the path, its call comes after all who have taken
their locks. -/
theorem takeNext (h : Since o w name path found before p) :
    Since o w name path found before (p.takeNext o name) := by
  rcases p.takeNext_cases o name with hsame | ⟨file, rest, hqueue, -, hnext⟩
  · rwa [hsame]
  · have hspawn := h.spawn name file
    rw [hnext]
    refine ⟨hspawn.followed, hspawn.files, hspawn.taken, hspawn.read, ?_⟩
    rcases hspawn.reported with hwaits | ⟨k, hk, hold⟩
    · have hpath : path = file ∨ path ∈ rest := List.mem_cons.1 (hqueue ▸ hwaits)
      rcases hpath with rfl | hrest
      · refine .inr ⟨p.system.callers.length, List.mem_cons_self, fun hmem => ?_, ?_⟩
        · obtain ⟨g, hg⟩ := h.followed
          exact absurd (hg.lt_of_mem_taken (h.taken.subset hmem)) (Nat.lt_irrefl _)
        · rw [asked, callers_spawn_length]
          rfl
      · exact .inl hrest
    · exact .inr ⟨k, List.mem_cons_of_mem _ hk, hold⟩

theorem turn (hfresh : w.FreshIds) (hpresent : w.state.contains name = true)
    (h : Since o w name path found before p) (t : Turn) (hfiles : t.files = p.files) :
    Since o w name path found before { p with system := p.system.step t } where
  followed := by
    obtain ⟨g, hg⟩ := h.followed
    exact hg.step hfresh t
  files := h.files
  taken := h.taken.trans (p.system.taken_suffix_step t)
  read k c hc hk hslot hread := by
    by_cases hkt : k = t.caller
    · subst hkt
      obtain ⟨g, hg⟩ := h.followed
      have hname : c.name = name := congrArg Prod.fst hslot
      rcases hg.tracked.hasRead_step hc (hname ▸ hpresent) hread with
        hnow | ⟨earlier, hget, hsame, hdone, hkept⟩
      · rw [hnow, hfiles]
        exact h.files
      · rw [hkept]
        exact h.read _ earlier hget hk (hsame.trans hslot) hdone
    · rw [System.callers_step_of_ne hkt] at hc
      exact h.read k c hc hk hslot hread
  reported := by
    refine h.reported.imp_right ?_
    rintro ⟨k, hk, hnew, hasked⟩
    exact ⟨k, hk, hnew, (asked_step_turn p.system t k).trans hasked⟩

theorem step (hfresh : w.FreshIds) (hpresent : w.state.contains name = true)
    (h : Since o w name path found before p) {st : Step}
    (hst : ∀ files, st = .write files → readSource files path = readSource p.files path) :
    Since o w name path found before (p.step o name st) := by
  cases st with
  | write files => exact ⟨h.followed, (hst files rfl).trans h.files, h.taken, h.read, h.reported⟩
  | report other =>
    exact ⟨h.followed, h.files, h.taken, h.read, h.reported.imp_left (List.mem_append_left _)⟩
  | next => exact h.takeNext
  | call other file => exact h.spawn other file
  | turn caller embed => exact h.turn hfresh hpresent _ rfl

theorem run (hfresh : w.FreshIds) (hpresent : w.state.contains name = true)
    (h : Since o w name path found before p) (steps : List Step)
    (hsteps : ∀ early files late, steps = early ++ .write files :: late →
      readSource files path = readSource (p.run o name early).files path) :
    Since o w name path found before (p.run o name steps) := by
  induction steps generalizing p with
  | nil => exact h
  | cons st rest ih =>
    refine ih (h.step hfresh hpresent fun files hwrite => ?_) fun early files late hsplit => ?_
    · exact hsteps [] files rest (congrArg (· :: rest) hwrite)
    · exact hsteps (st :: early) files late (congrArg (st :: ·) hsplit)

end Since

/-- No call for a file that took its lock after those of `before` failed in the embedder or in the
store. -/
def Unfailed (p : Pipeline) (slot : String × String) (before : List Nat) : Prop :=
  ∀ (k : Nat) c, p.system.callers[k]? = some c → k ∉ before → c.slot = slot →
    (∀ e, c.rest ≠ .done (.error (.embed e))) ∧ ∀ e, c.rest ≠ .done (.error (.store e))

/-- When nothing is left to do, the calls since the last report have left the records of the fragments
of what is read now. -/
theorem Since.records {source : SourceFile} {fs : List Chunk.Fragment}
    (h : Since o w name path (.ok source) before p) (hpresent : w.state.contains name = true)
    (hquiet : p.Quiet) (htext : source.text ≠ "") (hfs : fragmentsOf o source.text = .ok fs)
    (hunfailed : fs ≠ [] → p.Unfailed (name, path) before) :
    ∃ rs, (p.system.world.state.fileRecords name path).Perm rs ∧
      HoldFragments (fileMetadata path source) fs rs := by
  obtain ⟨g, hg⟩ := h.followed
  obtain ⟨later, htaken⟩ := h.taken
  have hnew : ∀ k ∈ later, k ∉ before := fun k hk hmem =>
    (List.nodup_append.1 (htaken ▸ hg.tracked.ledger.nodup)).2.2 k hk k hmem rfl
  -- each of the later calls for the file has stored the records of its fragments
  have hstored : ∀ k ∈ later, (g k).slot = (name, path) → ∃ rs, (g k).effect = some rs ∧
      HoldFragments (fileMetadata path source) fs rs := by
    intro k hk hslot
    obtain ⟨rfl, rfl⟩ := Prod.mk.inj hslot
    have hlt := hg.lt_of_mem_taken (htaken ▸ List.mem_append_left before hk)
    obtain ⟨hget, outcome, hleft⟩ := hg.tracked.left_of_done hquiet.2 hlt
    have hrest : ((g k).caller o).rest = .done outcome := by
      rw [Track.caller, hleft]
      rfl
    have hsettled := hg.tracked.valid k
    rw [Track.Valid, hleft] at hsettled
    have hdone : ((g k).caller o).hasRead = true := by
      rw [Caller.hasRead, hrest]
    have hread : readSource ((g k).caller o).files (g k).path = .ok source :=
      h.read k ((g k).caller o) hget (hnew k hk) rfl hdone
    refine hsettled.effect hpresent hread htext hfs (fun hne e => ?_) fun hne e => ?_
    · rintro rfl
      exact (hunfailed hne k _ hget (hnew k hk) rfl).1 e hrest
    · rintro rfl
      exact (hunfailed hne k _ hget (hnew k hk) rfl).2 e hrest
  -- there is one, that of the reindexer
  obtain ⟨k, hk, hslot⟩ : ∃ k ∈ later, (g k).slot = (name, path) := by
    rcases h.reported with hwaits | ⟨k, -, hold, hasked⟩
    · rw [hquiet.1] at hwaits
      exact absurd hwaits List.not_mem_nil
    · obtain ⟨c, hc, hslot⟩ := Option.map_eq_some_iff.1 hasked
      have hmem := hg.tracked.mem_taken_of_done hquiet.2 (lt_of_getElem? hc)
      refine ⟨k, (List.mem_append.1 (htaken ▸ hmem)).resolve_right hold, ?_⟩
      rw [← hslot, hg.tracked.callers k c hc]
      rfl
  obtain ⟨mine, hmine, -⟩ := hstored k hk hslot
  obtain ⟨rs, hlatest⟩ : ∃ rs, latest (fun j => (g j).slot) (fun j => (g j).effect) later name path =
      some rs := exists_latest hk hslot hmine
  obtain ⟨j, hj, hjslot, heffect⟩ := exists_of_latest_eq_some hlatest
  obtain ⟨other, hother, hholds⟩ := hstored j hj hjslot
  obtain rfl : other = rs := Option.some.inj (hother.symm.trans heffect)
  refine ⟨other, ?_, hholds⟩
  have hrecords := hg.tracked.ledger.follows.records name path
  rwa [← htaken, latest_append_of_some hlatest] at hrecords

end Pipeline

end CodeIndex.Index
