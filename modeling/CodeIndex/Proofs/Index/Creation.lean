import CodeIndex.Proofs.Index.Lifecycle

/-! Creations of one collection at the same time.  Several callers may be told that there is no such
collection yet.  The store creates it for the first of them that asks, and for no other; that one goes
on to declare the index, and nobody else touches the collection. -/

namespace CodeIndex.Index

open Store (Call Collection Field Memory StoreError)

/-- Callers at work in one world, none of which waits for a lock. -/
structure Crowd (α : Type) where
  world : World Memory
  jobs : List (Job α)

namespace Crowd

variable {α : Type}

/-- A caller carries out its next action, unless it is done. -/
def step (c : Crowd α) (k : Nat) : Crowd α :=
  match c.jobs[k]? with
  | some (.ask action next) =>
    let (answer, world) := World.carryOut action c.world
    { world, jobs := c.jobs.set k (next answer) }
  | _ => c

/-- Callers take turns, in any order. -/
def run (c : Crowd α) (turns : List Nat) : Crowd α := turns.foldl step c

/-- What a caller has come to, if it is done. -/
def outcome (c : Crowd α) (k : Nat) : Option α :=
  match c.jobs[k]? with
  | some (.done a) => some a
  | _ => none

/-- Callers who are about to create the same collection. -/
def creating (name : String) (count : Nat) (w : World Memory) : Crowd (Except ServiceError Unit) where
  world := w
  jobs := List.replicate count (createCollection name).run

end Crowd

namespace Creation

/-! ### Calls of the store -/

section

variable {name : String} {m : Memory}

theorem perform_create_absent (h : m.contains name = false) :
    m.perform (.create name) = (.ok (), m.set name .empty) := by
  rw [Memory.perform, Memory.create, h]
  rfl

theorem perform_create_present (h : m.contains name = true) :
    m.perform (.create name) = (.error (.backend (.collectionExists name)), m) := by
  rw [Memory.perform, Memory.create, h]
  rfl

theorem perform_createIndex {collection : Collection} (field : String)
    (h : m.collections.get? name = some collection) :
    m.perform (.createIndex name field) = (.ok (), m.set name (collection.declareIndex field)) := by
  rw [Memory.perform, Memory.createIndex, Memory.collection_eq h]
  rfl

theorem contains_set (m : Memory) (name : String) (collection : Collection) :
    (m.set name collection).contains name = true :=
  Memory.contains_eq_true_iff.2 ⟨collection, Memory.get?_set_self⟩

end

/-! ### Stages -/

/-- The stages of a creation. -/
inductive Stage where
  | check
  | create
  | index
  | finished (outcome : Except ServiceError Unit)

namespace Stage

def afterCheck (name : String) : Except StoreError Bool → Stage
  | .error e => finished (.error (.store e))
  | .ok present => if present then finished (.error (.collectionExists name)) else create

def afterCreate : Except StoreError Unit → Stage
  | .error e => finished (.error (.store e))
  | .ok _ => index

def afterIndex : Except StoreError Unit → Stage
  | .error e => finished (.error (.store e))
  | .ok _ => finished (.ok ())

/-- The next call, and the stage that its answer leads to. -/
def pending (name : String) : Stage → Option ((c : Call) × (c.Answer → Stage))
  | check => some ⟨.contains name, afterCheck name⟩
  | create => some ⟨.create name, afterCreate⟩
  | index => some ⟨.createIndex name Field.filePath.key, afterIndex⟩
  | finished _ => none

/-- What is left to do at a stage. -/
def job (name : String) : Stage → Attempt ServiceError Unit
  | check => createCollection name
  | create => makeIndexed name
  | index => call .store (.createIndex name Field.filePath.key)
  | finished outcome => ExceptT.mk (.done outcome)

/-- The number of calls that are left. -/
def left : Stage → Nat
  | check => 3
  | create => 2
  | index => 1
  | finished _ => 0

variable {name : String} {st : Stage} {c : Call} {next : c.Answer → Stage}

/-- The job of a stage makes the stage's call, and goes on with the job of the next stage. -/
theorem job_of_pending (h : st.pending name = some ⟨c, next⟩) :
    (st.job name).run = .ask (.store c) fun answer => ((next answer).job name).run := by
  cases st with
  | check =>
    cases h
    refine congrArg (Task.ask _) (funext fun answer => ?_)
    cases answer with
    | error e => rfl
    | ok present => cases present <;> rfl
  | create =>
    cases h
    refine congrArg (Task.ask _) (funext fun answer => ?_)
    cases answer <;> rfl
  | index =>
    cases h
    refine congrArg (Task.ask _) (funext fun answer => ?_)
    cases answer <;> rfl
  | finished outcome => cases h

theorem left_lt_of_pending (h : st.pending name = some ⟨c, next⟩) (answer : c.Answer) :
    (next answer).left < st.left := by
  cases st with
  | check =>
    cases h
    cases answer with
    | error e => simp [afterCheck, left]
    | ok present => cases present <;> simp [afterCheck, left]
  | create =>
    cases h
    cases answer <;> simp [afterCreate, left]
  | index =>
    cases h
    cases answer <;> simp [afterIndex, left]
  | finished outcome => cases h

/-- Nothing has come of the creation so far. -/
def Undecided (st : Stage) : Prop := st = check ∨ st = create

/-- The creation has failed because there is a collection of that name. -/
def Refused (name : String) (st : Stage) : Prop :=
  st = finished (.error (.collectionExists name)) ∨
    st = finished (.error (.store (.backend (.collectionExists name))))

theorem refused_of_present {m : Memory} (hst : st.Undecided ∨ st.Refused name)
    (h : st.pending name = some ⟨c, next⟩) (hpresent : m.contains name = true) :
    (m.perform c).2 = m ∧ (next (m.perform c).1).Refused name := by
  rcases hst with (rfl | rfl) | rfl | rfl
  · cases h
    rw [Memory.perform, hpresent]
    exact ⟨rfl, .inl rfl⟩
  · cases h
    rw [perform_create_present hpresent]
    exact ⟨rfl, .inr rfl⟩
  · cases h
  · cases h

/-- The creation has made the collection that there is. -/
inductive Makes : Stage → Collection → Prop
  | index : Makes index .empty
  | finished : Makes (finished (.ok ())) (Collection.empty.declareIndex Field.filePath.key)

end Stage

variable {name : String} {embed : Embedder} {before m : Memory} {stages : List Stage}
  {c : Crowd (Except ServiceError Unit)} {k : Nat}

/-! ### One turn -/

/-- The callers are at these stages, and the store is this one. -/
structure Reaches (name : String) (embed : Embedder) (c : Crowd (Except ServiceError Unit))
    (stages : List Stage) (m : Memory) : Prop where
  jobs_eq : c.jobs = stages.map fun st => (st.job name).run
  services_eq : c.world.services = .memory embed
  state_eq : c.world.state = m

/-- What the callers have come to after a turn of one of them. -/
inductive Turned (name : String) (stages : List Stage) (m : Memory) (k : Nat) :
    List Stage → Memory → Prop
  | idle (h : ∀ st ∈ stages[k]?, st.left = 0) : Turned name stages m k stages m
  | call {st : Stage} {c : Call} {next : c.Answer → Stage} (hst : stages[k]? = some st)
      (hpending : st.pending name = some ⟨c, next⟩) :
      Turned name stages m k (stages.set k (next (m.perform c).1)) (m.perform c).2

theorem Reaches.step (h : Reaches name embed c stages m) (k : Nat) :
    ∃ stages' m', Turned name stages m k stages' m' ∧ Reaches name embed (c.step k) stages' m' := by
  have hjob : c.jobs[k]? = stages[k]?.map fun st => (st.job name).run := by
    rw [h.jobs_eq, List.getElem?_map]
  cases hst : stages[k]? with
  | none =>
    rw [hst, Option.map_none] at hjob
    refine ⟨stages, m, .idle (by simp [hst]), ?_⟩
    rwa [Crowd.step, hjob]
  | some st =>
    rw [hst, Option.map_some] at hjob
    cases hpending : st.pending name with
    | none =>
      cases st with
      | finished outcome =>
        refine ⟨stages, m, .idle (by simp [hst, Stage.left]), ?_⟩
        rw [Crowd.step, hjob]
        exact h
      | _ => cases hpending
    | some found =>
      obtain ⟨call, next⟩ := found
      refine ⟨_, _, .call hst hpending, ?_⟩
      rw [Stage.job_of_pending hpending] at hjob
      have hcarry : World.carryOut (.store call) c.world =
          ((m.perform call).1, { c.world with state := (m.perform call).2 }) := by
        rw [← h.state_eq]
        show (let (answer, state) := c.world.services.store c.world.state call
          (answer, { c.world with state })) = _
        rw [h.services_eq]
        rfl
      have hstep : c.step k =
          ⟨{ c.world with state := (m.perform call).2 },
            c.jobs.set k ((next (m.perform call).1).job name).run⟩ := by
        simp only [Crowd.step, hjob, hcarry]
      rw [hstep]
      refine ⟨?_, h.services_eq, rfl⟩
      rw [List.map_set, ← h.jobs_eq]

/-! ### Who makes the collection -/

/-- Nobody has made the collection, or one of the callers has and nobody else will. -/
inductive Standing (name : String) (before : Memory) (stages : List Stage) : Memory → Prop
  | unmade (h : ∀ st ∈ stages, st.Undecided) : Standing name before stages before
  | made (winner : Nat) {collection : Collection}
      (hwinner : ∃ st, stages[winner]? = some st ∧ st.Makes collection)
      (hothers : ∀ k st, k ≠ winner → stages[k]? = some st → st.Undecided ∨ st.Refused name) :
      Standing name before stages (before.set name collection)

variable {stages' : List Stage} {m' : Memory}

/-- The collection is made by the caller that is the first to ask for it. -/
theorem Standing.turned_unmade (habsent : before.contains name = false)
    (h : ∀ st ∈ stages, st.Undecided) (ht : Turned name stages before k stages' m') :
    Standing name before stages' m' := by
  cases ht with
  | idle => exact .unmade h
  | @call st c next hst hpending =>
    rcases h st (List.mem_of_getElem? hst) with rfl | rfl
    · cases hpending
      refine .unmade fun st hst => ?_
      rcases List.mem_or_eq_of_mem_set hst with hst | rfl
      · exact h st hst
      · rw [Memory.perform, habsent]
        exact .inr rfl
    · cases hpending
      rw [perform_create_absent habsent]
      refine .made k ⟨.index, ?_, .index⟩ fun other st hne hother => ?_
      · exact List.getElem?_set_self (List.getElem?_eq_some_iff.1 hst).1
      · rw [List.getElem?_set_ne hne.symm] at hother
        exact .inl (h st (List.mem_of_getElem? hother))

/-- Whoever asks after that is refused, and the caller that made the collection goes on to its
index. -/
theorem Standing.turned_made {winner : Nat} {collection : Collection}
    (hwinner : ∃ st, stages[winner]? = some st ∧ st.Makes collection)
    (hothers : ∀ k st, k ≠ winner → stages[k]? = some st → st.Undecided ∨ st.Refused name)
    (ht : Turned name stages (before.set name collection) k stages' m') :
    Standing name before stages' m' := by
  cases ht with
  | idle => exact .made winner hwinner hothers
  | @call st c next hst hpending =>
    have hlt : k < stages.length := (List.getElem?_eq_some_iff.1 hst).1
    -- only the caller that made the collection has anything left to change in the store
    by_cases hk : k = winner
    · subst hk
      obtain ⟨_, hst', hmakes⟩ := hwinner
      rw [hst'] at hst
      obtain rfl := Option.some.inj hst
      cases hmakes with
      | finished => cases hpending
      | index =>
        cases hpending
        rw [perform_createIndex _ Memory.get?_set_self, Memory.set_set]
        refine .made k ⟨_, List.getElem?_set_self hlt, .finished⟩ fun other st hne hother => ?_
        rw [List.getElem?_set_ne hne.symm] at hother
        exact hothers other st hne hother
    · have hpresent := contains_set before name collection
      obtain ⟨hkept, hrefused⟩ := Stage.refused_of_present (hothers k st hk hst) hpending hpresent
      rw [hkept]
      refine .made winner ?_ fun other st' hne hother => ?_
      · rwa [List.getElem?_set_ne hk]
      · by_cases hother' : other = k
        · subst hother'
          rw [List.getElem?_set_self hlt] at hother
          exact Option.some.inj hother ▸ .inr hrefused
        · rw [List.getElem?_set_ne (Ne.symm hother')] at hother
          exact hothers other st' hne hother

theorem Standing.turned (habsent : before.contains name = false)
    (h : Standing name before stages m) (ht : Turned name stages m k stages' m') :
    Standing name before stages' m' := by
  cases h with
  | unmade h => exact turned_unmade habsent h ht
  | made winner hwinner hothers => exact turned_made hwinner hothers ht

/-! ### Whole runs -/

/-- A caller has at most so many calls left. -/
def LeftAtMost (stages : List Stage) (k n : Nat) : Prop := ∀ st ∈ stages[k]?, st.left ≤ n

theorem LeftAtMost.turned {other n : Nat} (h : LeftAtMost stages other n)
    (ht : Turned name stages m k stages' m') :
    LeftAtMost stages' other (n - if k = other then 1 else 0) := by
  intro st hst
  cases ht with
  | idle hidle =>
    split
    next hk =>
      subst hk
      rw [hidle st hst]
      exact Nat.zero_le _
    next => exact h st hst
  | @call turning c next hturning hpending =>
    split
    next hk =>
      subst hk
      rw [List.getElem?_set_self (List.getElem?_eq_some_iff.1 hturning).1] at hst
      have hlt := Stage.left_lt_of_pending hpending (m.perform c).1
      have hle := h turning hturning
      rw [← Option.some.inj hst]
      omega
    next hk =>
      rw [List.getElem?_set_ne hk] at hst
      exact h st hst

/-- What the callers have come to after any number of turns. -/
theorem Reaches.run (h : Reaches name embed c stages m) (habsent : before.contains name = false)
    (hstanding : Standing name before stages m) (turns : List Nat) {n : Nat → Nat}
    (hleft : ∀ k, LeftAtMost stages k (n k)) :
    ∃ stages' m', Reaches name embed (c.run turns) stages' m' ∧ stages'.length = stages.length ∧
      Standing name before stages' m' ∧ ∀ k, LeftAtMost stages' k (n k - turns.count k) := by
  induction turns generalizing c stages m n with
  | nil => exact ⟨stages, m, h, rfl, hstanding, hleft⟩
  | cons turn turns ih =>
    obtain ⟨stages₁, m₁, hturned, hreaches⟩ := h.step turn
    have hlength : stages₁.length = stages.length := by
      cases hturned with
      | idle => rfl
      | call => exact List.length_set
    -- the turn keeps the standing, and its caller has one call less to make
    obtain ⟨stages', m', hreaches', hlength', hstanding', hleft'⟩ :=
      ih hreaches (hstanding.turned habsent hturned) fun k => (hleft k).turned hturned
    refine ⟨stages', m', hreaches', hlength'.trans hlength, hstanding', fun k => ?_⟩
    have hcount : n k - (turn :: turns).count k =
        n k - (if turn = k then 1 else 0) - turns.count k := by
      rw [List.count_cons, Nat.sub_sub, Nat.add_comm (turns.count k)]
      simp only [beq_iff_eq]
    rw [hcount]
    exact hleft' k

theorem reaches_creating (name : String) (count : Nat) {w : World Memory}
    (hservices : w.services = .memory embed) :
    Reaches name embed (Crowd.creating name count w) (List.replicate count .check) w.state where
  jobs_eq := by rw [List.map_replicate]; rfl
  services_eq := hservices
  state_eq := rfl

theorem Reaches.outcome_eq_some_iff (h : Reaches name embed c stages m)
    {result : Except ServiceError Unit} :
    c.outcome k = some result ↔ stages[k]? = some (.finished result) := by
  rw [Crowd.outcome, h.jobs_eq, List.getElem?_map]
  cases stages[k]? with
  | none => simp
  | some st =>
    cases hpending : st.pending name with
    | none =>
      cases st with
      | finished outcome => simp [Stage.job, ExceptT.mk, ExceptT.run]
      | _ => cases hpending
    | some found =>
      rw [Option.map_some, Stage.job_of_pending hpending]
      have hst : ¬some st = some (.finished result) := by
        rintro ⟨⟩
        cases hpending
      simpa using hst

/-- One caller has made the collection, and all others were refused. -/
theorem Standing.settled (h : Standing name before stages m) (hpos : 0 < stages.length)
    (hdone : ∀ st ∈ stages, ∃ result, st = Stage.finished result) :
    ∃ winner, stages[winner]? = some (Stage.finished (.ok ())) ∧
      (∀ (k : Nat) (st : Stage), k ≠ winner → stages[k]? = some st → st.Refused name) ∧
      m = before.set name (Collection.empty.declareIndex Field.filePath.key) := by
  cases h with
  | unmade h =>
    obtain ⟨st, hst⟩ := List.exists_mem_of_length_pos hpos
    obtain ⟨result, rfl⟩ := hdone st hst
    rcases h _ hst with heq | heq <;> cases heq
  | made winner hwinner hothers =>
    obtain ⟨st, hst, hmakes⟩ := hwinner
    obtain ⟨result, rfl⟩ := hdone st (List.mem_of_getElem? hst)
    cases hmakes
    refine ⟨winner, hst, fun k st hk hst => ?_, rfl⟩
    obtain ⟨result, rfl⟩ := hdone st (List.mem_of_getElem? hst)
    rcases hothers k _ hk hst with (heq | heq) | hrefused
    · cases heq
    · cases heq
    · exact hrefused

/-- However the calls of the callers are mixed, each caller is done after three turns.  Once all are done,
exactly one of them has succeeded and the collection is there, without records and with the index on the
file path; every other collection is as it was. -/
theorem creations_have_one_winner {w : World Memory} (hservices : w.services = .memory embed)
    (habsent : w.state.contains name = false) {count : Nat} (hcount : 0 < count)
    (turns : List Nat) {c : Crowd (Except ServiceError Unit)}
    (hc : c = (Crowd.creating name count w).run turns) :
    (∀ k < count, 3 ≤ turns.count k → (c.outcome k).isSome) ∧
    ((∀ k < count, (c.outcome k).isSome) →
      (∃ winner < count, c.outcome winner = some (.ok ()) ∧
        ∀ k < count, k ≠ winner → ∃ e, c.outcome k = some (.error e)) ∧
      (∃ made, c.world.state.collections.get? name = some made ∧ made.records = .empty ∧
        made.indexes = [Field.filePath.key]) ∧
      ∀ other, other ≠ name →
        c.world.state.collections.get? other = w.state.collections.get? other) := by
  have hstart : ∀ k, LeftAtMost (List.replicate count .check) k 3 := fun k st hst => by
    rw [List.eq_of_mem_replicate (List.mem_of_getElem? hst)]
    exact Nat.le_refl _
  have hunmade : Standing name w.state (List.replicate count .check) w.state :=
    .unmade fun st hst => .inl (List.eq_of_mem_replicate hst)
  obtain ⟨stages, m, hreaches, hlength, hstanding, hleft⟩ :=
    (reaches_creating name count hservices).run habsent hunmade turns hstart
  rw [← hc] at hreaches
  rw [List.length_replicate] at hlength
  have hstage : ∀ k < count, ∃ st, stages[k]? = some st := fun k hk =>
    ⟨_, List.getElem?_eq_getElem (hlength ▸ hk)⟩
  refine ⟨fun k hk hturns => ?_, fun hdone => ?_⟩
  · obtain ⟨st, hst⟩ := hstage k hk
    have hzero := hleft k st hst
    rw [Nat.sub_eq_zero_of_le hturns] at hzero
    -- at any other stage there are calls left
    cases st with
    | finished result => rw [hreaches.outcome_eq_some_iff.2 hst]; rfl
    | _ => exact absurd hzero (Nat.not_succ_le_zero _)
  · have hfinished : ∀ st ∈ stages, ∃ result, st = Stage.finished result := by
      intro st hst
      obtain ⟨k, hk⟩ := List.getElem?_of_mem hst
      have hlt := (List.getElem?_eq_some_iff.1 hk).1
      obtain ⟨result, hresult⟩ := Option.isSome_iff_exists.1 (hdone k (hlength ▸ hlt))
      rw [hreaches.outcome_eq_some_iff, hk] at hresult
      exact ⟨result, Option.some.inj hresult⟩
    obtain ⟨winner, hwinner, hothers, rfl⟩ := hstanding.settled (hlength ▸ hcount) hfinished
    refine ⟨⟨winner, ?_, hreaches.outcome_eq_some_iff.2 hwinner, fun k hk hne => ?_⟩, ?_, ?_⟩
    · exact hlength ▸ (List.getElem?_eq_some_iff.1 hwinner).1
    · obtain ⟨st, hst⟩ := hstage k hk
      rcases hothers k st hne hst with rfl | rfl
      · exact ⟨_, hreaches.outcome_eq_some_iff.2 hst⟩
      · exact ⟨_, hreaches.outcome_eq_some_iff.2 hst⟩
    · rw [hreaches.state_eq]
      exact ⟨_, Memory.get?_set_self, rfl, rfl⟩
    · intro other hne
      rw [hreaches.state_eq]
      exact Memory.get?_set_of_ne hne

/-- A world with a collection of one record, whose store refuses nothing. -/
def shared : World Memory := { World.oneRecord fun _ => false with services := .memory fun _ => .ok [] }

/-- Both callers are told that there is no such collection, and the second is the first to ask for it. -/
def late : Crowd (Except ServiceError Unit) := (Crowd.creating "new" 2 shared).run [0, 1, 1, 0, 1]

theorem creations_have_one_winner_late :
    shared.state.contains "new" = false ∧
      late.outcome 0 = some (.error (.store (.backend (.collectionExists "new")))) ∧
      late.outcome 1 = some (.ok ()) ∧
      (∃ made, late.world.state.collections.get? "new" = some made ∧ made.records = .empty ∧
        made.indexes = [Field.filePath.key]) ∧
      late.world.state.collections.get? "code" = shared.state.collections.get? "code" := by
  have hfirst : late.outcome 0 = some (.error (.store (.backend (.collectionExists "new")))) := rfl
  have hsecond : late.outcome 1 = some (.ok ()) := rfl
  have hdone : ∀ k < 2, (late.outcome k).isSome := fun k hk =>
    match k, hk with
    | 0, _ => by rw [hfirst]; rfl
    | 1, _ => by rw [hsecond]; rfl
  have habsent : shared.state.contains "new" = false := rfl
  have hservices : shared.services = .memory fun _ => .ok [] := rfl
  obtain ⟨-, hmade, hothers⟩ := (creations_have_one_winner hservices habsent (Nat.succ_pos 1)
    [0, 1, 1, 0, 1] (c := late) rfl).2 hdone
  exact ⟨habsent, hfirst, hsecond, hmade, hothers "code" (by decide)⟩

end Creation

end CodeIndex.Index
