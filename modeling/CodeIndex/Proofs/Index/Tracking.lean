import CodeIndex.Proofs.Index.Exclusion
import CodeIndex.Proofs.Index.Ledger
import CodeIndex.Proofs.Index.Track

/-! Callers at work at the same time, followed step by step.  Every caller is on its track, the locks
are guarded, and the store is told by the turns that the callers took: this holds at the start, and
whoever takes the next step, it holds after the step. -/

namespace CodeIndex.Index

open Files (Entry)
open Store (Collection Memory Metadata Record)

/-- Identifiers, by their numbers, that were drawn from a supply; nobody has drawn what another has. -/
structure Drawn (first next : Nat) (drawn : Nat → List Nat) : Prop where
  le : first ≤ next
  range : ∀ k, ∀ i ∈ drawn k, first ≤ i ∧ i < next
  nodup : ∀ k, (drawn k).Nodup
  apart : ∀ j k i, i ∈ drawn j → i ∈ drawn k → j = k

theorem Drawn.draw {first next : Nat} {drawn : Nat → List Nat} (h : Drawn first next drawn)
    (k : Nat) : Drawn first (next + 1) (Function.update drawn k (drawn k ++ [next])) := by
  -- a number drawn before stays with whoever has it, and the new one is greater than these
  have hmem : ∀ j i, i ∈ Function.update drawn k (drawn k ++ [next]) j →
      i ∈ drawn j ∨ (i = next ∧ j = k) := by
    intro j i hi
    by_cases hjk : j = k
    · subst hjk
      rw [Function.update_self] at hi
      rcases List.mem_append.1 hi with hi | hi
      · exact .inl hi
      · exact .inr ⟨List.mem_singleton.1 hi, rfl⟩
    · rw [Function.update_of_ne hjk] at hi
      exact .inl hi
  refine ⟨Nat.le_succ_of_le h.le, ?_, ?_, ?_⟩
  · intro j i hi
    rcases hmem j i hi with hi | ⟨rfl, -⟩
    · have := h.range j i hi
      omega
    · have := h.le
      omega
  · intro j
    by_cases hjk : j = k
    · subst hjk
      rw [Function.update_self]
      refine List.nodup_append.2 ⟨h.nodup j, by simp, ?_⟩
      intro i hi n hn hsame
      have := (h.range j i hi).2
      rw [List.mem_singleton] at hn
      omega
    · rw [Function.update_of_ne hjk]
      exact h.nodup j
  · intro i j n hi hj
    rcases hmem i n hi with hfirst | ⟨hfirst, rfl⟩ <;>
      rcases hmem j n hj with hsecond | ⟨hsecond, rfl⟩
    · exact h.apart i j n hfirst hsecond
    · have := (h.range i n hfirst).2
      omega
    · have := (h.range j n hsecond).2
      omega
    · rfl

/-- The tracks of callers at work, from a world in which they were about to start. -/
structure Tracked (o : Chunk.Options) (w : World Memory) (s : System) (g : Nat → Track) : Prop where
  callers : ∀ k caller, s.callers[k]? = some caller → caller = (g k).caller o
  valid : ∀ k, (g k).Valid o w
  ids : s.world.ids = w.ids
  drawn : Drawn w.used s.world.used fun k => (g k).drawn
  guarded : Guarded s.world.locks (fun k => (g k).key) (fun k => (g k).phase.kept)
    fun k => (g k).phase.held
  entered : ∀ k, k ∈ s.taken ↔ (g k).phase.entered = true
  ledger : Ledger w.state s.world.state (fun k => (g k).slot) (fun k => (g k).phase.held ≠ none)
    (fun k => (g k).prior) (fun k => (g k).effect) s.taken

theorem read_update {α : Type} (read : Track → α) (g : Nat → Track) (k : Nat) (t : Track) :
    (fun j => read (Function.update g k t j)) =
      Function.update (fun j => read (g j)) k (read t) := by
  funext j
  by_cases hjk : j = k
  · rw [hjk, Function.update_self, Function.update_self]
  · rw [Function.update_of_ne hjk, Function.update_of_ne hjk]

theorem read_update_same {α : Type} (read : Track → α) {g : Nat → Track} {k : Nat} {t : Track}
    (h : read t = read (g k)) :
    (fun j => read (Function.update g k t j)) = fun j => read (g j) := by
  rw [read_update, h, Function.update_eq_self]

namespace Tracked

variable {o : Chunk.Options} {w : World Memory} {s : System} {g : Nat → Track} {k : Nat}

theorem start (o : Chunk.Options) (w : World Memory) (calls : List (String × String)) :
    Tracked o w (System.start o w calls) fun k => .unbegun w.files (calls.getD k ("", "")) := by
  refine ⟨fun k caller hk => ?_, fun _ => ⟨rfl, rfl⟩, rfl,
    ⟨Nat.le_refl _, fun _ _ hi => ?_, fun _ => List.nodup_nil, fun _ _ _ hi => ?_⟩,
    Guarded.init _ _, fun k => ?_, ?_⟩
  · simp only [System.start, List.getElem?_map, Option.map_eq_some_iff] at hk
    obtain ⟨call, hcall, rfl⟩ := hk
    rw [List.getD_eq_getElem?_getD, hcall]
    rfl
  · exact absurd hi List.not_mem_nil
  · exact absurd hi List.not_mem_nil
  · exact ⟨fun hk => absurd hk List.not_mem_nil, fun hk => nomatch hk⟩
  · exact (Ledger.init w.state _ _).leave fun _ hj => hj rfl

theorem callers_set (h : Tracked o w s g) (t : Track) :
    ∀ j caller, (s.callers.set k (t.caller o))[j]? = some caller →
      caller = (Function.update g k t j).caller o := by
  intro j caller hj
  by_cases hjk : j = k
  · subst hjk
    rw [Function.update_self]
    rw [List.getElem?_set] at hj
    split at hj
    · split at hj
      · exact (Option.some.inj hj).symm
      · cases hj
    · next hne => exact absurd rfl hne
  · rw [List.getElem?_set_ne (Ne.symm hjk)] at hj
    rw [Function.update_of_ne hjk]
    exact h.callers j caller hj

theorem valid_update (h : Tracked o w s g) {t : Track} (ht : t.Valid o w) :
    ∀ j, (Function.update g k t j).Valid o w := by
  intro j
  by_cases hjk : j = k
  · rw [hjk, Function.update_self]
    exact ht
  · rw [Function.update_of_ne hjk]
    exact h.valid j

/-- A caller that holds its lock goes from one stage to another. -/
theorem move (h : Tracked o w s g) {lock : LockId} {pr pr' : Progress} {t : Track} {s' : System}
    (hk : (g k).phase = .inside lock pr) (hphase : t.phase = .inside lock pr')
    (hslot : t.slot = (g k).slot) (hprior : t.prior = (g k).prior) (hvalid : t.Valid o w)
    (hcallers : s'.callers = s.callers.set k (t.caller o)) (htaken : s'.taken = s.taken)
    (hlocks : s'.world.locks = s.world.locks) (hids : s'.world.ids = s.world.ids)
    (hdrawn : Drawn w.used s'.world.used (Function.update (fun j => (g j).drawn) k t.drawn))
    (hledger : Ledger w.state s'.world.state (fun j => (g j).slot)
      (fun j => (g j).phase.held ≠ none) (fun j => (g j).prior)
      (Function.update (fun j => (g j).effect) k t.effect) s.taken) :
    Tracked o w s' (Function.update g k t) where
  callers := hcallers ▸ h.callers_set t
  valid := h.valid_update hvalid
  ids := hids.trans h.ids
  drawn := by
    rw [read_update Track.drawn]
    exact hdrawn
  guarded := by
    have hkey : t.key = (g k).key := Track.key_eq_of_slot_eq hslot
    rw [hlocks, read_update_same Track.key hkey,
      read_update_same (fun t => t.phase.kept) (by rw [hk, hphase]; rfl),
      read_update_same (fun t => t.phase.held) (by rw [hk, hphase]; rfl)]
    exact h.guarded
  entered j := by
    have hsame := congrFun (read_update_same (fun t => t.phase.entered) (g := g) (k := k) (t := t)
      (by rw [hk, hphase]; rfl)) j
    rw [htaken, h.entered j]
    exact iff_of_eq (congrArg (· = true) hsame.symm)
  ledger := by
    rw [htaken, read_update_same Track.slot hslot,
      read_update_same (fun t => t.phase.held ≠ none) (by rw [hk, hphase]; rfl),
      read_update_same Track.prior hprior, read_update Track.effect]
    exact hledger

/-- While a lock is held, no action waits for a lock. -/
theorem waits_of_pending {name path : String} {pr : Progress} {action : Action}
    {next : action.Answer → Progress} (h : pr.pending o name path = some ⟨action, next⟩)
    (l : Locks) : action.waits l = false := by
  cases pr <;> cases h <;> rfl

/-- While a lock is held, no action touches the locks or the supply of identifiers. -/
theorem carryOut_of_pending {name path : String} {pr : Progress} {action : Action}
    {next : action.Answer → Progress} (h : pr.pending o name path = some ⟨action, next⟩)
    (w : World Memory) :
    action.takes = false ∧ (World.carryOut action w).2.locks = w.locks ∧
      (World.carryOut action w).2.ids = w.ids := by
  cases pr <;> cases h <;> exact ⟨rfl, rfl, rfl⟩

/-- A caller that holds its lock is about to carry out the action of its stage. -/
theorem rest_of_pending (h : Tracked o w s g) {c : Caller} (hcaller : s.callers[k]? = some c)
    {lock : LockId} {pr : Progress} (hphase : (g k).phase = .inside lock pr) {action : Action}
    {next : action.Answer → Progress}
    (hpending : pr.pending o (g k).name (g k).path = some ⟨action, next⟩) :
    c.rest = .ask action fun answer =>
      ((next answer).job o (g k).name (g k).path).run >>= Phase.closing lock := by
  rw [h.callers _ c hcaller, Track.caller, hphase, Phase.job, Progress.job_of_pending hpending]
  rfl

/-- The step of a caller that holds its lock, as a change of its track. -/
theorem advance (h : Tracked o w s g) {turn : Turn} {c : Caller}
    (hcaller : s.callers[turn.caller]? = some c) {lock : LockId} {pr : Progress}
    (hphase : (g turn.caller).phase = .inside lock pr) {action : Action}
    {next : action.Answer → Progress}
    (hpending : pr.pending o (g turn.caller).name (g turn.caller).path = some ⟨action, next⟩)
    {t : Track} (hslot : t.slot = (g turn.caller).slot) (hprior : t.prior = (g turn.caller).prior)
    (hafter : t.phase = .inside lock (next (World.carryOut action (s.around turn)).1))
    (hmeet : (((g turn.caller).caller o).meet turn action).files = t.files ∧
      (((g turn.caller).caller o).meet turn action).embed = t.embed)
    (hvalid : t.Valid o w)
    (hdrawn : Drawn w.used (World.carryOut action (s.around turn)).2.used
      (Function.update (fun j => (g j).drawn) turn.caller t.drawn))
    (hledger : Ledger w.state (World.carryOut action (s.around turn)).2.state
      (fun j => (g j).slot) (fun j => (g j).phase.held ≠ none) (fun j => (g j).prior)
      (Function.update (fun j => (g j).effect) turn.caller t.effect) s.taken) :
    Tracked o w (s.step turn) (Function.update g turn.caller t) := by
  obtain ⟨htakes, hlocks, hids⟩ := carryOut_of_pending hpending (s.around turn)
  obtain ⟨hname, hpath⟩ := Prod.mk.inj hslot
  have hrest := h.rest_of_pending hcaller hphase hpending
  obtain rfl := h.callers _ c hcaller
  have hstep := System.step_of_ask hcaller hrest (waits_of_pending hpending _)
  rw [htakes] at hstep
  refine h.move hphase hafter hslot hprior hvalid ?_ ?_ ?_ ?_ ?_ ?_
  · rw [hstep]
    refine congrArg (s.callers.set turn.caller) ?_
    show Caller.mk (((g turn.caller).caller o).meet turn action).name
      (((g turn.caller).caller o).meet turn action).path _ _ _ =
        ⟨t.name, t.path, t.files, t.embed, t.phase.job o t.name t.path⟩
    rw [Caller.name_meet, Caller.path_meet, hmeet.1, hmeet.2, hafter, hname, hpath]
    rfl
  · rw [hstep]
    rfl
  · rw [hstep]
    exact hlocks
  · rw [hstep]
    exact hids
  · rw [hstep]
    exact hdrawn
  · rw [hstep]
    exact hledger

theorem advance_quiet (h : Tracked o w s g) {turn : Turn} {c : Caller}
    (hcaller : s.callers[turn.caller]? = some c) {lock : LockId} {pr : Progress}
    (hphase : (g turn.caller).phase = .inside lock pr) {action : Action}
    {next : action.Answer → Progress}
    (hpending : pr.pending o (g turn.caller).name (g turn.caller).path = some ⟨action, next⟩)
    {t : Track} (hslot : t.slot = (g turn.caller).slot) (hprior : t.prior = (g turn.caller).prior)
    (hdrawn : t.drawn = (g turn.caller).drawn) (heffect : t.effect = (g turn.caller).effect)
    (hafter : t.phase = .inside lock (next (World.carryOut action (s.around turn)).1))
    (hmeet : (((g turn.caller).caller o).meet turn action).files = t.files ∧
      (((g turn.caller).caller o).meet turn action).embed = t.embed)
    (hvalid : t.Valid o w)
    (hused : (World.carryOut action (s.around turn)).2.used = s.world.used)
    (hstate : (World.carryOut action (s.around turn)).2.state = s.world.state) :
    Tracked o w (s.step turn) (Function.update g turn.caller t) := by
  refine h.advance hcaller hphase hpending hslot hprior hafter hmeet hvalid ?_ ?_
  · rw [hused, hdrawn, Function.update_eq_self]
    exact h.drawn
  · rw [hstate, heffect, Function.update_eq_self]
    exact h.ledger

section

variable (h : Tracked o w s g) {turn : Turn} {c : Caller}
  (hcaller : s.callers[turn.caller]? = some c) {lock : LockId}
include h hcaller

theorem step_check (hphase : (g turn.caller).phase = .inside lock .check)
    (hat : (g turn.caller).At o w .check) :
    ∃ t, t.slot = (g turn.caller).slot ∧
      Tracked o w (s.step turn) (Function.update g turn.caller t) := by
  refine ⟨{ g turn.caller with
    phase := .inside lock (.afterCheck (g turn.caller).name
      (.ok (w.state.contains (g turn.caller).name))) }, rfl, ?_⟩
  refine h.advance_quiet hcaller hphase rfl rfl rfl rfl rfl ?_ ⟨rfl, rfl⟩ ?_ rfl rfl
  · rw [← h.ledger.follows.contains_eq]
    rfl
  · exact Track.At.valid (t := g turn.caller) (Track.at_afterCheck hat) lock

theorem step_read (hphase : (g turn.caller).phase = .inside lock .read)
    (hat : (g turn.caller).At o w .read) :
    ∃ t, t.slot = (g turn.caller).slot ∧
      Tracked o w (s.step turn) (Function.update g turn.caller t) := by
  refine ⟨{ g turn.caller with
    files := turn.files
    phase := .inside lock (.afterRead o (g turn.caller).path
      (readSource turn.files (g turn.caller).path)) }, rfl, ?_⟩
  refine h.advance_quiet hcaller hphase rfl rfl rfl rfl rfl rfl ⟨rfl, rfl⟩ ?_ rfl rfl
  exact Track.At.valid (t := { g turn.caller with files := turn.files })
    (Track.at_afterRead hat.1 hat.2) lock

theorem step_embed {file : Metadata} {f : Chunk.Fragment} {fs : List Chunk.Fragment}
    (hphase : (g turn.caller).phase = .inside lock (.embed file f fs))
    (hat : (g turn.caller).At o w (.embed file f fs)) :
    ∃ t, t.slot = (g turn.caller).slot ∧
      Tracked o w (s.step turn) (Function.update g turn.caller t) := by
  refine ⟨{ g turn.caller with
    embed := turn.embed
    phase := .inside lock (.afterEmbed file (f :: fs)
      (turn.embed ((f :: fs).map fragmentText))) }, rfl, ?_⟩
  refine h.advance_quiet hcaller hphase rfl rfl rfl rfl rfl rfl ⟨rfl, rfl⟩ ?_ rfl rfl
  exact Track.At.valid (t := { g turn.caller with embed := turn.embed })
    (Track.at_afterEmbed hat turn.embed) lock

theorem step_name {file : Metadata} {named : List Record} {pair : Pair} {todo : List Pair}
    (hphase : (g turn.caller).phase = .inside lock (.name file named pair todo))
    (hat : (g turn.caller).At o w (.name file named pair todo)) :
    ∃ t, t.slot = (g turn.caller).slot ∧
      Tracked o w (s.step turn) (Function.update g turn.caller t) := by
  refine ⟨{ g turn.caller with
    drawn := (g turn.caller).drawn ++ [s.world.used]
    phase := .inside lock (.naming file
      (named ++ [fragmentRecord file pair.1 pair.2 (w.ids s.world.used)]) todo) }, rfl, ?_⟩
  refine h.advance hcaller hphase rfl rfl rfl ?_ ⟨rfl, rfl⟩ ?_ ?_ ?_
  · rw [← h.ids]
    rfl
  · exact Track.At.valid
      (t := { g turn.caller with drawn := (g turn.caller).drawn ++ [s.world.used] })
      (Track.at_naming_of_name hat s.world.used) lock
  · exact h.drawn.draw turn.caller
  · show Ledger w.state s.world.state _ _ _ _ _
    rw [Function.update_eq_self]
    exact h.ledger

omit hcaller in
theorem exists_collection {rs : List Record} (hready : (g k).Ready o w rs) :
    ∃ c, s.world.state.collections.get? (g k).name = some c := by
  refine Memory.contains_eq_true_iff.1 ?_
  rw [h.ledger.follows.contains_eq]
  exact hready.contains

omit hcaller in
/-- A caller that has not stored anything yet finds what was there when it took its lock. -/
theorem forFile_of_none {d : Collection}
    (hd : s.world.state.collections.get? (g k).name = some d) (hbusy : (g k).phase.held ≠ none)
    (heffect : (g k).effect = none) : (d.forFile (g k).path).Perm (g k).prior := by
  have hrecords : (s.world.state.fileRecords (g k).name (g k).path).Perm (g k).prior :=
    h.ledger.fileRecords_of_none hbusy heffect
  rwa [Memory.fileRecords_eq hd] at hrecords

omit hcaller in
/-- Once the records of its file are deleted, a caller finds none. -/
theorem forFile_of_deleted {d : Collection}
    (hd : s.world.state.collections.get? (g k).name = some d) (hbusy : (g k).phase.held ≠ none)
    (heffect : (g k).effect = some []) : d.forFile (g k).path = [] := by
  have hrecords : (s.world.state.fileRecords (g k).name (g k).path).Perm [] :=
    h.ledger.fileRecords_of_some hbusy heffect
  rw [Memory.fileRecords_eq hd] at hrecords
  exact List.perm_nil.1 hrecords

theorem step_find {rs : List Record} (hphase : (g turn.caller).phase = .inside lock (.find rs))
    (hat : (g turn.caller).At o w (.find rs)) :
    ∃ t, t.slot = (g turn.caller).slot ∧
      Tracked o w (s.step turn) (Function.update g turn.caller t) := by
  obtain ⟨heffect, hready⟩ := hat
  obtain ⟨d, hd⟩ := h.exists_collection hready
  have hfind := Memory.perform_find_file hd (g turn.caller).path
  refine ⟨{ g turn.caller with
    phase := .inside lock (.delete rs ((d.forFile (g turn.caller).path).map Record.id)) }, rfl, ?_⟩
  refine h.advance_quiet hcaller hphase rfl rfl rfl rfl rfl ?_ ⟨rfl, rfl⟩ ?_ rfl ?_
  · show _ = Phase.inside lock (.afterFind rs (s.world.state.perform (.find _ _)).1)
    rw [hfind]
    rfl
  · have hprior := h.forFile_of_none hd (by simp [hphase, Phase.held]) heffect
    refine Track.At.valid (t := g turn.caller) ?_ lock
    exact ⟨heffect, hready, hprior.map _⟩
  · exact congrArg Prod.snd hfind

theorem step_delete {rs : List Record} {stale : List String}
    (hphase : (g turn.caller).phase = .inside lock (.delete rs stale))
    (hat : (g turn.caller).At o w (.delete rs stale)) :
    ∃ t, t.slot = (g turn.caller).slot ∧
      Tracked o w (s.step turn) (Function.update g turn.caller t) := by
  obtain ⟨heffect, hready, hstale⟩ := hat
  obtain ⟨d, hd⟩ := h.exists_collection hready
  have hbusy : (g turn.caller).phase.held ≠ none := by simp [hphase, Phase.held]
  have hprior := h.forFile_of_none hd hbusy heffect
  have herase : d.eraseAll stale = d.withoutFile (g turn.caller).path :=
    Collection.eraseAll_eq_withoutFile fun id =>
      (hstale.trans (hprior.map Record.id).symm).mem_iff
  have hdelete : s.world.state.perform (.deleteIds (g turn.caller).name stale) = (.ok (), _) :=
    Memory.perform_deleteIds hd
  rw [herase] at hdelete
  refine ⟨{ g turn.caller with
    effect := some []
    phase := .inside lock (.store rs stale.length) }, rfl, ?_⟩
  refine h.advance hcaller hphase rfl rfl rfl ?_ ⟨rfl, rfl⟩ ?_ ?_ ?_
  · show _ = Phase.inside lock (.afterDelete rs _ (s.world.state.perform (.deleteIds _ _)).1)
    rw [hdelete]
    rfl
  · refine Track.At.valid (t := { g turn.caller with effect := some [] }) ?_ lock
    exact ⟨rfl, hready, by rw [hstale.length_eq, List.length_map]⟩
  · rw [Function.update_eq_self]
    exact h.drawn
  · show Ledger _ (s.world.state.perform (.deleteIds _ _)).2 _ _ _ _ _
    rw [hdelete]
    exact h.ledger.store hbusy (h.ledger.follows.withoutFile hd _)

omit hcaller in
/-- A stored record was there at the start, or its identifier was drawn by the caller that stored
it. -/
theorem start_or_drawn {name : String} {d : Collection}
    (hd : s.world.state.collections.get? name = some d) {r : Record} (hr : r ∈ d) :
    (∃ d₀, w.state.collections.get? name = some d₀ ∧ r ∈ d₀) ∨
      ∃ j rs, (g j).effect = some rs ∧ r ∈ rs := by
  have hrecords := h.ledger.follows.records name r.payload.metadata.filePath
  rw [Memory.fileRecords_eq hd] at hrecords
  have hmem := hrecords.mem_iff.1 (Collection.mem_forFile.2 ⟨hr, rfl⟩)
  cases hlatest : latest (fun j => (g j).slot) (fun j => (g j).effect) s.taken name
      r.payload.metadata.filePath with
  | some rs =>
    rw [hlatest] at hmem
    obtain ⟨j, -, -, hj⟩ := exists_of_latest_eq_some hlatest
    exact .inr ⟨j, rs, hj, hmem⟩
  | none =>
    rw [hlatest] at hmem
    cases hstart : w.state.collections.get? name with
    | some d₀ =>
      rw [Option.getD_none, Memory.fileRecords_eq hstart] at hmem
      exact .inl ⟨d₀, rfl, (Collection.mem_forFile.1 hmem).1⟩
    | none =>
      rw [Option.getD_none, Memory.fileRecords, hstart] at hmem
      exact absurd hmem List.not_mem_nil

omit hcaller in
/-- The records of a caller fit in beside what is stored: what others have drawn is not theirs. -/
theorem fits (hfresh : w.FreshIds) {rs : List Record} {d : Collection}
    (hd : s.world.state.collections.get? (g k).name = some d) (hready : (g k).Ready o w rs)
    (heffect : (g k).effect = some []) : d.Fits (g k).path rs where
  ids_nodup := by
    rw [hready.ids, List.nodup_iff_pairwise_ne, List.pairwise_map]
    refine List.Pairwise.imp_of_mem ?_ (List.nodup_iff_pairwise_ne.1 (h.drawn.nodup k))
    intro i j hi hj hne hsame
    exact hne (hfresh.distinct i j (h.drawn.range k i hi).1 (h.drawn.range k j hj).1 hsame)
  ids_new r hr hmem := by
    rw [hready.ids] at hmem
    obtain ⟨i, hi, hid⟩ := List.mem_map.1 hmem
    have hfirst := (h.drawn.range k i hi).1
    rcases h.start_or_drawn hd hr with ⟨d₀, hd₀, hr₀⟩ | ⟨j, ss, hj, hrs⟩
    · exact hfresh.unknown _ d₀ hd₀ r hr₀ i hfirst hid.symm
    · obtain ⟨n, hn, hother⟩ := List.mem_map.1 ((h.valid j).mem_drawn_of_effect hj hrs)
      have hsame := hfresh.distinct i n hfirst (h.drawn.range j n hn).1 (hid.trans hother.symm)
      obtain rfl := h.drawn.apart k j i hi (hsame ▸ hn)
      rw [heffect] at hj
      obtain rfl := Option.some.inj hj
      exact absurd hrs List.not_mem_nil
  filePath := hready.filePath

theorem step_store (hfresh : w.FreshIds) {rs : List Record} {removed : Nat}
    (hphase : (g turn.caller).phase = .inside lock (.store rs removed))
    (hat : (g turn.caller).At o w (.store rs removed)) :
    ∃ t, t.slot = (g turn.caller).slot ∧
      Tracked o w (s.step turn) (Function.update g turn.caller t) := by
  obtain ⟨heffect, hready, hremoved⟩ := hat
  obtain ⟨d, hd⟩ := h.exists_collection hready
  have hbusy : (g turn.caller).phase.held ≠ none := by simp [hphase, Phase.held]
  have hupsert : s.world.state.perform (.upsert (g turn.caller).name rs) = _ :=
    Memory.perform_upsert hd
  have hrefusal : s.world.state.refusal rs = w.state.refusal rs := by
    rw [Memory.refusal, Memory.refusal, h.ledger.follows.denseSize]
  rw [hrefusal] at hupsert
  cases htaken : w.state.refusal rs with
  | some e =>
    rw [htaken] at hupsert
    refine ⟨{ g turn.caller with phase := .inside lock (.finished (.error (.store e))) }, rfl, ?_⟩
    refine h.advance_quiet hcaller hphase rfl rfl rfl rfl rfl ?_ ⟨rfl, rfl⟩ ?_ rfl ?_
    · show _ = Phase.inside lock (.afterStore rs _ (s.world.state.perform (.upsert _ _)).1)
      rw [hupsert]
      rfl
    · refine Track.At.valid (t := g turn.caller) ?_ lock
      refine .inr ⟨rs, hready, ?_, ?_⟩
      · rw [swapOutcome, htaken]
      · rw [heffect, Track.stored, htaken]
    · exact congrArg Prod.snd hupsert
  | none =>
    rw [htaken] at hupsert
    have hnone := h.forFile_of_deleted hd hbusy heffect
    refine ⟨{ g turn.caller with
      effect := some rs
      phase := .inside lock (.finished (.ok { fragments := rs.length, removed })) }, rfl, ?_⟩
    refine h.advance hcaller hphase rfl rfl rfl ?_ ⟨rfl, rfl⟩ ?_ ?_ ?_
    · show _ = Phase.inside lock (.afterStore rs _ (s.world.state.perform (.upsert _ _)).1)
      rw [hupsert]
      rfl
    · refine Track.At.valid (t := { g turn.caller with effect := some rs }) ?_ lock
      refine .inr ⟨rs, hready, ?_, ?_⟩
      · rw [swapOutcome, htaken, hremoved]
      · rw [Track.stored, htaken]
    · rw [Function.update_eq_self]
      exact h.drawn
    · show Ledger _ (s.world.state.perform (.upsert _ _)).2 _ _ _ _ _
      rw [hupsert]
      exact h.ledger.store hbusy
        (h.ledger.follows.insertAll hd (h.fits hfresh hd hready heffect) hnone)

omit hcaller in
theorem entered_update {t : Track} (hsame : t.phase.entered = (g k).phase.entered) (j : Nat) :
    j ∈ s.taken ↔ (Function.update g k t j).phase.entered = true := by
  have hread := congrFun (read_update_same (fun t => t.phase.entered) hsame) j
  rw [h.entered j]
  exact iff_of_eq (congrArg (· = true) hread.symm)

omit hcaller in
/-- A caller that does not begin a turn leaves the others to theirs. -/
theorem ledger_update {t : Track} (hprior : t.prior = (g k).prior)
    (hheld : t.phase.held ≠ none → (g k).phase.held ≠ none) :
    Ledger w.state s.world.state (fun j => (g j).slot)
      (fun j => (Function.update g k t j).phase.held ≠ none)
      (Function.update (fun j => (g j).prior) k t.prior) (fun j => (g j).effect) s.taken := by
  rw [hprior, Function.update_eq_self]
  refine h.ledger.leave fun j hj => ?_
  by_cases hjk : j = k
  · subst hjk
    rw [Function.update_self] at hj
    exact hheld hj
  · rwa [Function.update_of_ne hjk] at hj

omit hcaller in
/-- A step that changes the locks and nothing that is stored. -/
theorem relock {t : Track} {locks : Locks} {taken : List Nat}
    (hstep : s.step turn =
      ⟨{ s.around turn with locks }, s.callers.set turn.caller (t.caller o), taken⟩)
    (hslot : t.slot = (g turn.caller).slot) (hdrawn : t.drawn = (g turn.caller).drawn)
    (heffect : t.effect = (g turn.caller).effect) (hvalid : t.Valid o w)
    (hguarded : Guarded locks (fun j => (g j).key)
      (Function.update (fun j => (g j).phase.kept) turn.caller t.phase.kept)
      (Function.update (fun j => (g j).phase.held) turn.caller t.phase.held))
    (hentered : ∀ j, j ∈ taken ↔ (Function.update g turn.caller t j).phase.entered = true)
    (hledger : Ledger w.state s.world.state (fun j => (g j).slot)
      (fun j => (Function.update g turn.caller t j).phase.held ≠ none)
      (Function.update (fun j => (g j).prior) turn.caller t.prior) (fun j => (g j).effect) taken) :
    Tracked o w (s.step turn) (Function.update g turn.caller t) := by
  rw [hstep]
  refine ⟨h.callers_set t, h.valid_update hvalid, h.ids, ?_, ?_, hentered, ?_⟩
  · rw [read_update_same Track.drawn hdrawn]
    exact h.drawn
  · have hkey : t.key = (g turn.caller).key := Track.key_eq_of_slot_eq hslot
    rw [read_update_same Track.key hkey, read_update (fun t => t.phase.kept),
      read_update (fun t => t.phase.held)]
    exact hguarded
  · rw [read_update_same Track.slot hslot, read_update Track.prior,
      read_update_same Track.effect heffect]
    exact hledger

theorem step_obtain (hphase : (g turn.caller).phase = .idle) (hvalid : (g turn.caller).Valid o w) :
    ∃ t, t.slot = (g turn.caller).slot ∧
      Tracked o w (s.step turn) (Function.update g turn.caller t) := by
  obtain rfl := h.callers _ c hcaller
  have hrest : ((g turn.caller).caller o).rest =
      .ask (.obtainLock (g turn.caller).name (g turn.caller).path) fun lock =>
        (Phase.queued lock).job o (g turn.caller).name (g turn.caller).path := by
    rw [Track.caller, hphase]
    rfl
  have huntouched : (g turn.caller).Untouched := by
    rwa [Track.Valid, hphase] at hvalid
  refine ⟨{ g turn.caller with phase := .queued (s.world.locks.lockFor (g turn.caller).key).1 },
    rfl, ?_⟩
  refine h.relock (System.step_of_ask hcaller hrest rfl) rfl rfl rfl huntouched ?_ ?_ ?_
  · have hguarded := h.guarded.lockFor (k := turn.caller) (by rw [hphase]; rfl)
    rw [show Phase.held (.queued _) = (g turn.caller).phase.held by rw [hphase]; rfl,
      Function.update_eq_self]
    exact hguarded
  · exact h.entered_update (by rw [hphase]; rfl)
  · exact h.ledger_update rfl fun hheld => absurd rfl hheld

theorem step_acquire {lock : LockId} (hphase : (g turn.caller).phase = .queued lock)
    (hvalid : (g turn.caller).Valid o w) (hfree : s.world.locks.isFree lock = true) :
    ∃ t, t.slot = (g turn.caller).slot ∧
      Tracked o w (s.step turn) (Function.update g turn.caller t) := by
  obtain rfl := h.callers _ c hcaller
  have hrest : ((g turn.caller).caller o).rest = .ask (.acquire lock) fun _ =>
      (Phase.inside lock .check).job o (g turn.caller).name (g turn.caller).path := by
    rw [Track.caller, hphase]
    rfl
  have huntouched : (g turn.caller).Untouched := by
    rwa [Track.Valid, hphase] at hvalid
  have hout : turn.caller ∉ s.taken := by
    rw [h.entered, hphase]
    exact Bool.false_ne_true
  -- nobody who holds a lock is at the same file
  have hothers : ∀ j, (g j).phase.held ≠ none → (g turn.caller).slot ≠ (g j).slot := by
    intro j hj hslot
    obtain ⟨other, hother⟩ := Option.ne_none_iff_exists'.1 hj
    have hkey : (g turn.caller).key = (g j).key := Track.key_eq_of_slot_eq hslot
    have hkept : (g turn.caller).phase.kept = some lock := by rw [hphase]; rfl
    rw [h.guarded.not_isFree hkept hother hkey] at hfree
    cases hfree
  have hledger := h.ledger.enter hout hothers
  refine ⟨{ g turn.caller with
    phase := .inside lock .check
    prior := (latest (fun j => (g j).slot) (fun j => (g j).effect) s.taken (g turn.caller).name
      (g turn.caller).path).getD
        (w.state.fileRecords (g turn.caller).name (g turn.caller).path) }, rfl, ?_⟩
  refine h.relock (System.step_of_ask hcaller hrest (by simp [Action.waits, hfree])) rfl rfl rfl
    huntouched ?_ ?_ ?_
  · have hguarded := h.guarded.acquire (k := turn.caller) (by rw [hphase]; rfl) hfree
    rw [show Phase.kept (.inside lock .check) = (g turn.caller).phase.kept by rw [hphase]; rfl,
      Function.update_eq_self]
    exact hguarded
  · intro j
    by_cases hjk : j = turn.caller
    · subst hjk
      rw [Function.update_self]
      exact ⟨fun _ => rfl, fun _ => List.mem_cons_self⟩
    · rw [Function.update_of_ne hjk, ← h.entered j]
      exact ⟨fun hj => (List.mem_cons.1 hj).resolve_left hjk, List.mem_cons_of_mem _⟩
  · refine hledger.leave fun j hj => ?_
    by_cases hjk : j = turn.caller
    · exact .inl hjk
    · rw [Function.update_of_ne hjk] at hj
      exact .inr hj

theorem step_release {lock : LockId} {outcome : Except IndexError FileReport}
    (hphase : (g turn.caller).phase = .inside lock (.finished outcome))
    (hat : (g turn.caller).At o w (.finished outcome)) :
    ∃ t, t.slot = (g turn.caller).slot ∧
      Tracked o w (s.step turn) (Function.update g turn.caller t) := by
  obtain rfl := h.callers _ c hcaller
  have hrest : ((g turn.caller).caller o).rest = .ask (.release lock) fun _ =>
      (Phase.leaving lock outcome).job o (g turn.caller).name (g turn.caller).path := by
    rw [Track.caller, hphase]
    rfl
  refine ⟨{ g turn.caller with phase := .leaving lock outcome }, rfl, ?_⟩
  refine h.relock (System.step_of_ask hcaller hrest rfl) rfl rfl rfl hat ?_ ?_ ?_
  · have hguarded := h.guarded.release (k := turn.caller) (by rw [hphase]; rfl)
    rw [show Phase.kept (.leaving lock outcome) = (g turn.caller).phase.kept by rw [hphase]; rfl,
      Function.update_eq_self]
    exact hguarded
  · exact h.entered_update (by rw [hphase]; rfl)
  · exact h.ledger_update rfl fun hheld => absurd rfl hheld

theorem step_forget {lock : LockId} {outcome : Except IndexError FileReport}
    (hphase : (g turn.caller).phase = .leaving lock outcome)
    (hvalid : (g turn.caller).Valid o w) :
    ∃ t, t.slot = (g turn.caller).slot ∧
      Tracked o w (s.step turn) (Function.update g turn.caller t) := by
  obtain rfl := h.callers _ c hcaller
  have hrest : ((g turn.caller).caller o).rest = .ask (.forget lock) fun _ =>
      (Phase.left outcome).job o (g turn.caller).name (g turn.caller).path := by
    rw [Track.caller, hphase]
    rfl
  have hsettled : (g turn.caller).Settled o w outcome := by
    rwa [Track.Valid, hphase] at hvalid
  refine ⟨{ g turn.caller with phase := .left outcome }, rfl, ?_⟩
  refine h.relock (System.step_of_ask hcaller hrest rfl) rfl rfl rfl hsettled ?_ ?_ ?_
  · have hguarded := h.guarded.forget (k := turn.caller) (by rw [hphase]; rfl) (by rw [hphase]; rfl)
    rw [show Phase.held (.left outcome) = (g turn.caller).phase.held by rw [hphase]; rfl,
      Function.update_eq_self]
    exact hguarded
  · exact h.entered_update (by rw [hphase]; rfl)
  · exact h.ledger_update rfl fun hheld => absurd rfl hheld

end

/-- Whoever takes the next step, all callers are on their tracks after it. -/
theorem step (hfresh : w.FreshIds) (h : Tracked o w s g) (turn : Turn) :
    ∃ t, t.slot = (g turn.caller).slot ∧ (s.callers.length ≤ turn.caller → t = g turn.caller) ∧
      Tracked o w (s.step turn) (Function.update g turn.caller t) := by
  have hstay : s.step turn = s → ∃ t, t.slot = (g turn.caller).slot ∧
      (s.callers.length ≤ turn.caller → t = g turn.caller) ∧
      Tracked o w (s.step turn) (Function.update g turn.caller t) := by
    intro hsame
    refine ⟨g turn.caller, rfl, fun _ => rfl, ?_⟩
    rw [hsame, Function.update_eq_self]
    exact h
  cases hcaller : s.callers[turn.caller]? with
  | none => exact hstay (System.step_of_none hcaller)
  | some c =>
    have hmove : (∃ t, t.slot = (g turn.caller).slot ∧
          Tracked o w (s.step turn) (Function.update g turn.caller t)) →
        ∃ t, t.slot = (g turn.caller).slot ∧ (s.callers.length ≤ turn.caller → t = g turn.caller) ∧
          Tracked o w (s.step turn) (Function.update g turn.caller t) := by
      rintro ⟨t, hslot, ht⟩
      have hlt := (List.getElem?_eq_some_iff.1 hcaller).1
      exact ⟨t, hslot, fun hle => absurd hlt (Nat.not_lt.2 hle), ht⟩
    have hvalid := h.valid turn.caller
    have hrest : c.rest = (g turn.caller).phase.job o (g turn.caller).name (g turn.caller).path := by
      rw [h.callers _ c hcaller]
      rfl
    cases hphase : (g turn.caller).phase with
    | idle => exact hmove (h.step_obtain hcaller hphase hvalid)
    | queued lock =>
      cases hfree : s.world.locks.isFree lock with
      | true => exact hmove (h.step_acquire hcaller hphase hvalid hfree)
      | false =>
        rw [hphase, Phase.job] at hrest
        exact hstay (System.step_of_waits hcaller hrest (by simp [Action.waits, hfree]))
    | leaving lock outcome => exact hmove (h.step_forget hcaller hphase hvalid)
    | left outcome =>
      rw [hphase, Phase.job] at hrest
      exact hstay (System.step_of_done hcaller hrest)
    | inside lock progress =>
      rw [Track.Valid, hphase] at hvalid
      cases progress with
      | check => exact hmove (h.step_check hcaller hphase hvalid)
      | read => exact hmove (h.step_read hcaller hphase hvalid)
      | embed file f fs => exact hmove (h.step_embed hcaller hphase hvalid)
      | name file named pair todo => exact hmove (h.step_name hcaller hphase hvalid)
      | find rs => exact hmove (h.step_find hcaller hphase hvalid)
      | delete rs stale => exact hmove (h.step_delete hcaller hphase hvalid)
      | store rs removed => exact hmove (h.step_store hcaller hfresh hphase hvalid)
      | finished outcome => exact hmove (h.step_release hcaller hphase hvalid)

theorem run (hfresh : w.FreshIds) (h : Tracked o w s g) (turns : List Turn) :
    ∃ g', (∀ k, (g' k).slot = (g k).slot) ∧ Tracked o w (s.run turns) g' := by
  induction turns generalizing s g with
  | nil => exact ⟨g, fun _ => rfl, h⟩
  | cons turn turns ih =>
    obtain ⟨t, hslot, -, hnext⟩ := h.step hfresh turn
    obtain ⟨last, hslots, hlast⟩ := ih hnext
    exact ⟨last, fun k => (hslots k).trans (congrFun (read_update_same Track.slot hslot) k), hlast⟩

end Tracked

end CodeIndex.Index
