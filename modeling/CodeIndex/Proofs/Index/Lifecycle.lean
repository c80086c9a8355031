import CodeIndex.Index.Search
import CodeIndex.Proofs.Index.Failure
import CodeIndex.Proofs.Store.Refinement

/-! Making and clearing collections on a store whose calls may fail.  Each call fails without an
effect or takes effect, and an effect is not undone when a later call fails.  So a collection whose
index could not be made stays, without the index, and is in the way of the next attempt to make it;
and a collection that could not be made again after it was deleted is lost. -/

namespace CodeIndex.Index

open Store (Call Collection Field Holdings Memory Record Shelf StoreError)

/-- A call has failed, and what is seen of the store is as it was, or it has had its effect. -/
def TakesEffect {σ : Type} (services : Services σ) (view : σ → Holdings) (s : σ) (c : Call)
    (effect : c.Result → Holdings → Prop) : Prop :=
  match (services.store s c).1 with
  | .error _ => view (services.store s c).2 = view s
  | .ok answer => effect answer (view (services.store s c).2)

/-- The calls on whole collections take effect or fail without one. -/
structure Services.Atomic {σ : Type} (services : Services σ) (view : σ → Holdings) : Prop where
  contains : ∀ s name, TakesEffect services view s (.contains name) fun present after =>
    present = (view s name).isSome ∧ after = view s
  create : ∀ s name, TakesEffect services view s (.create name) fun _ after =>
    view s name = none ∧ after = (view s).set name .empty
  createIndex : ∀ s name field, TakesEffect services view s (.createIndex name field)
    fun _ after => ∃ shelf, view s name = some shelf ∧
      after = (view s).set name (shelf.declare field)
  delete : ∀ s name, TakesEffect services view s (.delete name) fun _ after =>
    after = Function.update (view s) name none

/-! ### A store in memory that refuses some calls -/

def Services.refusing (refused : Call → Bool) : Services Memory where
  store s c := if refused c then (.error (.backend (.report "refused")), s) else s.perform c
  embed s _ := (.ok [], s)

/-- The store in memory does what a map does, and a call that is refused does nothing. -/
theorem takesEffect_refusing {refused : Call → Bool} {m : Memory} {c : Call}
    {effect : c.Result → Holdings → Prop}
    (h : ∀ answer after, m.holdings.change m.denseSize (.call c) = .ok after →
      m.holdings.Answers (.call c) answer → effect answer after) :
    TakesEffect (.refusing refused) Memory.holdings m c effect := by
  unfold TakesEffect Services.refusing
  cases hrefused : refused c with
  | true => simp [hrefused]
  | false =>
    simp only [hrefused, Bool.false_eq_true, if_false]
    have hsimulates := m.simulates_operate (.call c)
    unfold Memory.Simulates Memory.operate at hsimulates
    cases hchange : m.holdings.change m.denseSize (.call c) with
    | error reason =>
      simp only [hchange] at hsimulates
      rw [hsimulates]
    | ok after =>
      simp only [hchange] at hsimulates
      obtain ⟨answer, hanswer, hholds, hafter⟩ := hsimulates
      rw [hanswer, hafter]
      exact h answer after hchange hholds

theorem Services.atomic_refusing (refused : Call → Bool) :
    (Services.refusing refused).Atomic Memory.holdings where
  contains m name := takesEffect_refusing fun present after hchange hpresent => by
    cases hchange
    exact ⟨hpresent, rfl⟩
  create m name := takesEffect_refusing fun _ after hchange _ => by
    simp only [Holdings.change] at hchange
    split at hchange
    · cases hchange
    · next habsent =>
      cases hchange
      exact ⟨by simpa using habsent, rfl⟩
  createIndex m name field := takesEffect_refusing fun _ after hchange _ => by
    obtain ⟨shelf, hshelf, ⟨⟩⟩ := Holdings.exists_of_shelf_bind hchange
    exact ⟨shelf, hshelf, rfl⟩
  delete m name := takesEffect_refusing fun _ after hchange _ => by
    cases hchange
    rfl

/-! ### Calls one after the other -/

/-- What comes of a job that may fail: its outcome, the calls of the store that it made, and what is
seen of the store afterwards. -/
structure Course (ε α : Type) where
  outcome : Except ε α
  calls : List Call
  after : Holdings

namespace World

variable {σ ε α : Type} {view : σ → Holdings} {w : World σ} {name : String}

def course (view : σ → Holdings) (job : Attempt ε α) (w : World σ) : Course ε α :=
  ⟨(attempt job w).1, calls job.run w, view (attempt job w).2.state⟩

def afterCall (w : World σ) (c : Call) : World σ :=
  { w with state := (w.services.store w.state c).2 }

theorem calls_call (cause : StoreError → ε) (c : Call) : calls (call cause c).run w = [c] := by
  have hrun : (call cause c).run = .ask (.store c) fun answer => (settle cause answer).run := rfl
  rw [hrun, calls]
  cases (carryOut (.store c) w).1 <;> rfl

theorem calls_call_bind (cause : StoreError → ε) (c : Call) (f : c.Result → Attempt ε α) :
    calls (call cause c >>= f).run w = c ::
      match (w.services.store w.state c).1 with
      | .error _ => []
      | .ok a => calls (f a).run (w.afterCall c) := by
  have hrun : (call cause c >>= f).run = (call cause c).run >>= ExceptT.bindCont f := rfl
  rw [hrun, calls_bind, calls_call, ← attempt, attempt_call]
  cases (w.services.store w.state c).1 <;> rfl

theorem course_call (cause : StoreError → ε) {c : Call} {effect : c.Result → Holdings → Prop}
    (h : TakesEffect w.services view w.state c effect) :
    (∃ reason, course view (call cause c) w = ⟨.error (cause reason), [c], view w.state⟩) ∨
      ∃ answer after, effect answer after ∧
        course view (call cause c) w = ⟨.ok answer, [c], after⟩ := by
  simp only [course, attempt_call, calls_call]
  unfold TakesEffect at h
  cases hanswer : (w.services.store w.state c).1 with
  | error reason =>
    rw [hanswer] at h
    exact .inl ⟨reason, by rw [mapError_error, h]⟩
  | ok answer =>
    rw [hanswer] at h
    exact .inr ⟨answer, _, h, rfl⟩

/-- A call fails without a trace and nothing comes after it, or what comes after it works on its
effect. -/
theorem course_call_bind (cause : StoreError → ε) {c : Call}
    {effect : c.Result → Holdings → Prop} (h : TakesEffect w.services view w.state c effect)
    (f : c.Result → Attempt ε α) :
    (∃ reason, course view (call cause c >>= f) w = ⟨.error (cause reason), [c], view w.state⟩) ∨
      ∃ answer, effect answer (view (w.afterCall c).state) ∧
        course view (call cause c >>= f) w =
          { course view (f answer) (w.afterCall c) with
            calls := c :: (course view (f answer) (w.afterCall c)).calls } := by
  simp only [course, attempt_bind, attempt_call, calls_call_bind]
  unfold TakesEffect at h
  cases hanswer : (w.services.store w.state c).1 with
  | error reason =>
    rw [hanswer] at h
    exact .inl ⟨reason, by rw [mapError_error, h]⟩
  | ok answer =>
    rw [hanswer] at h
    exact .inr ⟨answer, h, rfl⟩

end World

/-! ### Making and clearing -/

/-- The two calls that make a collection with its index. -/
def makeIndexed (name : String) : Attempt ServiceError Unit := do
  call .store (.create name)
  call .store (.createIndex name Field.filePath.key)

theorem createCollection_eq (name : String) :
    createCollection name = call .store (.contains name) >>= fun present =>
      if present = true then throw (.collectionExists name) else makeIndexed name := rfl

theorem clearCollection_eq (name : String) :
    clearCollection name = call .store (.contains name) >>= fun present =>
      if present = true then call .store (.delete name) >>= fun _ => makeIndexed name
      else makeIndexed name := rfl

/-- How far the making of a collection can come. -/
inductive Making (name : String) (before : Holdings) : Course ServiceError Unit → Prop
  | uncreated (reason : StoreError) :
      Making name before ⟨.error (.store reason), [.create name], before⟩
  | unindexed (reason : StoreError) (habsent : before name = none) :
      Making name before ⟨.error (.store reason),
        [.create name, .createIndex name Field.filePath.key], before.set name .empty⟩
  | done (habsent : before name = none) :
      Making name before ⟨.ok (), [.create name, .createIndex name Field.filePath.key],
        before.set name (Shelf.empty.declare Field.filePath.key)⟩

/-- How the creation of a collection can go. -/
inductive Creating (name : String) (before : Holdings) : Course ServiceError Unit → Prop
  | unchecked (reason : StoreError) :
      Creating name before ⟨.error (.store reason), [.contains name], before⟩
  | taken (hpresent : (before name).isSome) :
      Creating name before ⟨.error (.collectionExists name), [.contains name], before⟩
  | making {made : Course ServiceError Unit} (habsent : before name = none)
      (hmade : Making name before made) :
      Creating name before { made with calls := .contains name :: made.calls }

/-- How the clearing of a collection can go. -/
inductive Clearing (name : String) (before : Holdings) : Course ServiceError Unit → Prop
  | unchecked (reason : StoreError) :
      Clearing name before ⟨.error (.store reason), [.contains name], before⟩
  | undeleted (reason : StoreError) (hpresent : (before name).isSome) :
      Clearing name before ⟨.error (.store reason), [.contains name, .delete name], before⟩
  | fresh {made : Course ServiceError Unit} (habsent : before name = none)
      (hmade : Making name before made) :
      Clearing name before { made with calls := .contains name :: made.calls }
  | again {made : Course ServiceError Unit} (hpresent : (before name).isSome)
      (hmade : Making name (Function.update before name none) made) :
      Clearing name before { made with calls := .contains name :: .delete name :: made.calls }

/-- What a creation leaves.  One that asked for the index and failed leaves a collection without it,
which each later creation finds in its way. -/
structure LeftByCreation (name : String) (before : Holdings) (r : Course ServiceError Unit) :
    Prop where
  kept {e : ServiceError} : r.outcome = .error e →
    .createIndex name Field.filePath.key ∉ r.calls → r.after = before
  halfMade {e : ServiceError} : r.outcome = .error e →
    .createIndex name Field.filePath.key ∈ r.calls →
    before name = none ∧ r.after = before.set name .empty
  /-- Where there is no collection only the store can stop a creation. -/
  free {e : ServiceError} : r.outcome = .error e → before name = none → ∃ reason, e = .store reason
  refused : (before name).isSome →
    (∃ e, r.outcome = .error e) ∧ .createIndex name Field.filePath.key ∉ r.calls
  made : r.outcome = .ok () → before name = none ∧
    r.after = before.set name (Shelf.empty.declare Field.filePath.key)

/-- What a clearing leaves. -/
structure LeftByClearing (name : String) (before : Holdings) (r : Course ServiceError Unit) :
    Prop where
  kept {e : ServiceError} : r.outcome = .error e → .create name ∉ r.calls → r.after = before
  lost {e : ServiceError} : r.outcome = .error e → .create name ∈ r.calls →
    .createIndex name Field.filePath.key ∉ r.calls → r.after = Function.update before name none
  halfMade {e : ServiceError} : r.outcome = .error e →
    .createIndex name Field.filePath.key ∈ r.calls → r.after = before.set name .empty
  made : r.outcome = .ok () → r.after = before.set name (Shelf.empty.declare Field.filePath.key)

theorem Creating.left {name : String} {before : Holdings} {r : Course ServiceError Unit}
    (h : Creating name before r) : LeftByCreation name before r := by
  cases h with
  | unchecked reason => constructor <;> simp
  | taken hpresent => constructor <;> simp [Option.ne_none_iff_isSome.2 hpresent]
  | making habsent hmade => constructor <;> cases hmade <;> simp [*]

theorem Clearing.left {name : String} {before : Holdings} {r : Course ServiceError Unit}
    (h : Clearing name before r) : LeftByClearing name before r := by
  cases h with
  | unchecked reason => constructor <;> simp
  | undeleted reason hpresent => constructor <;> simp
  | fresh habsent hmade => constructor <;> cases hmade <;> simp [*]
  | again hpresent hmade => constructor <;> cases hmade <;> simp [*, Holdings.set]

namespace World

variable {σ : Type} {view : σ → Holdings} {w : World σ} {name : String}

theorem course_makeIndexed (h : w.services.Atomic view) :
    Making name (view w.state) (course view (makeIndexed name) w) := by
  have hcreate := h.create w.state name
  rcases course_call_bind ServiceError.store hcreate
    (fun _ => call ServiceError.store (.createIndex name Field.filePath.key)) with
    ⟨reason, hrun⟩ | ⟨_, ⟨habsent, hafter⟩, hrun⟩
  · rw [makeIndexed, hrun]
    exact .uncreated reason
  · have hindex := h.createIndex (w.afterCall (.create name)).state name Field.filePath.key
    rcases course_call ServiceError.store (w := w.afterCall (.create name)) hindex with
      ⟨reason, hlast⟩ | ⟨_, after, ⟨shelf, hshelf, rfl⟩, hlast⟩
    · rw [makeIndexed, hrun, hlast, hafter]
      exact .unindexed reason habsent
    · rw [hafter, Holdings.set, Function.update_self] at hshelf
      obtain rfl := Option.some.inj hshelf
      rw [makeIndexed, hrun, hlast, hafter, Holdings.set, Holdings.set, Function.update_idem]
      exact .done habsent

theorem course_createCollection (h : w.services.Atomic view) :
    Creating name (view w.state) (course view (createCollection name) w) := by
  rw [createCollection_eq]
  rcases course_call_bind ServiceError.store (h.contains w.state name)
    (fun present =>
      if present = true then throw (.collectionExists name) else makeIndexed name) with
    ⟨reason, hrun⟩ | ⟨present, ⟨hpresent, hafter⟩, hrun⟩
  · rw [hrun]
    exact .unchecked reason
  · rw [hrun]
    cases present with
    | true =>
      rw [if_pos rfl, course, attempt_throw, hafter]
      exact .taken hpresent.symm
    | false =>
      rw [if_neg Bool.false_ne_true, ← hafter]
      exact .making (by simpa [hafter] using hpresent.symm) (course_makeIndexed h)

theorem course_clearCollection (h : w.services.Atomic view) :
    Clearing name (view w.state) (course view (clearCollection name) w) := by
  rw [clearCollection_eq]
  rcases course_call_bind ServiceError.store (h.contains w.state name)
    (fun present => if present = true then
      call .store (.delete name) >>= fun _ => makeIndexed name else makeIndexed name) with
    ⟨reason, hrun⟩ | ⟨present, ⟨hpresent, hafter⟩, hrun⟩
  · rw [hrun]
    exact .unchecked reason
  · rw [hrun]
    cases present with
    | false =>
      rw [if_neg Bool.false_ne_true, ← hafter]
      exact .fresh (by simpa [hafter] using hpresent.symm) (course_makeIndexed h)
    | true =>
      -- from here on the collection is gone, whatever becomes of the calls that are to follow
      have hdelete := h.delete (w.afterCall (.contains name)).state name
      rw [if_pos rfl]
      rcases course_call_bind ServiceError.store (w := w.afterCall (.contains name)) hdelete
        (fun _ => makeIndexed name) with ⟨reason, hgone⟩ | ⟨_, hgone, hrest⟩
      · rw [hgone, hafter]
        exact .undeleted reason hpresent.symm
      · have hmade : Making name _ _ :=
          course_makeIndexed (w := (w.afterCall (.contains name)).afterCall (.delete name)) h
        rw [hgone, hafter] at hmade
        rw [hrest]
        exact .again hpresent.symm hmade

/-- A creation that fails changes nothing, unless the index was asked for: then the collection is
there, empty and without the index.  Where there is a collection each creation fails and asks for no
index.  A clearing that fails changes nothing, unless the collection was to be created: then it is
lost or, if the index was asked for, empty and without the index. -/
theorem creation_and_clearing_undo_nothing (h : w.services.Atomic view) (name : String) :
    LeftByCreation name (view w.state) (course view (createCollection name) w) ∧
      LeftByClearing name (view w.state) (course view (clearCollection name) w) :=
  ⟨(course_createCollection h).left, (course_clearCollection h).left⟩

/-- A world with a collection of one record, in which some calls of the store are refused. -/
def oneRecord (refused : Call → Bool) : World Memory where
  services := .refusing refused
  state := (Memory.empty 0).set "code"
    (Collection.empty.insert ⟨"1", ⟨#[], .empty⟩, "text", ⟨"a.js", "a.js", "js", 4, 0, 1, 1⟩⟩)
  files := .directory []
  ids _ := ""

def refusesCreate : Call → Bool
  | .create _ => true
  | _ => false

def refusesIndex : Call → Bool
  | .createIndex _ _ => true
  | _ => false

theorem creation_and_clearing_undo_nothing_refused :
    ((oneRecord refusesIndex).services.Atomic Memory.holdings ∧
      (course Memory.holdings (createCollection "new") (oneRecord refusesIndex)).after =
        (oneRecord refusesIndex).state.holdings.set "new" .empty) ∧
    (oneRecord refusesCreate).services.Atomic Memory.holdings ∧
      (course Memory.holdings (clearCollection "code") (oneRecord refusesCreate)).after =
        Function.update (oneRecord refusesCreate).state.holdings "code" none := by
  have hindex : (oneRecord refusesIndex).services.Atomic Memory.holdings :=
    Services.atomic_refusing _
  have hcreate : (oneRecord refusesCreate).services.Atomic Memory.holdings :=
    Services.atomic_refusing _
  have hcreated :
      (course Memory.holdings (createCollection "new") (oneRecord refusesIndex)).calls =
        [.contains "new", .create "new", .createIndex "new" Field.filePath.key] := rfl
  have hcleared :
      (course Memory.holdings (clearCollection "code") (oneRecord refusesCreate)).calls =
        [.contains "code", .delete "code", .create "code"] := rfl
  refine ⟨⟨hindex, ?_⟩, hcreate, ?_⟩
  · have hcreation := (creation_and_clearing_undo_nothing hindex "new").1
    exact (hcreation.halfMade rfl (by simp [hcreated])).2
  · have hclearing := (creation_and_clearing_undo_nothing hcreate "code").2
    exact hclearing.lost rfl (by simp [hcleared]) (by simp [hcleared])

/-- A creation that was refused the index has left a collection behind, which is in the way of the
next creation; a clearing that was refused the creation has lost the records. -/
theorem creation_and_clearing_leave_traces :
    (oneRecord refusesIndex).services.Atomic Memory.holdings ∧
      (attempt (createCollection "new") (oneRecord refusesIndex)).1 =
        .error (.store (.backend (.report "refused"))) ∧
      (oneRecord refusesIndex).state.contains "new" = false ∧
      (attempt (createCollection "new") (oneRecord refusesIndex)).2.state.contains "new" = true ∧
      (attempt (createCollection "new") { oneRecord fun _ => false with
        state := (attempt (createCollection "new") (oneRecord refusesIndex)).2.state }).1 =
        .error (.collectionExists "new") ∧
    (oneRecord refusesCreate).services.Atomic Memory.holdings ∧
      (attempt (clearCollection "code") (oneRecord refusesCreate)).1 =
        .error (.store (.backend (.report "refused"))) ∧
      ((oneRecord refusesCreate).state.holdings "code").isSome ∧
      (attempt (clearCollection "code") (oneRecord refusesCreate)).2.state.holdings "code" = none :=
  ⟨Services.atomic_refusing _, rfl, rfl, rfl, rfl, Services.atomic_refusing _, rfl, rfl, rfl⟩

end World

end CodeIndex.Index
