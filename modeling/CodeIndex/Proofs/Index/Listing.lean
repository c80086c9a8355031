import CodeIndex.Index.Reconcile

/-! Listing files.  What a listing gives can be settled beforehand: the job that is left asks for no
listing any more.  Bringing single files up to date is left as it is, since it never lists. -/

namespace CodeIndex.Index

variable {α β ε : Type}

/-- The job when listing files gives a certain list. -/
def Task.listing (listed : List String) : Job α → Job α
  | .done a => .done a
  | .ask (.walk _) next => (next listed).listing listed
  | .ask action next => .ask action fun answer => (next answer).listing listed

/-- The same for a job that may fail. -/
def Attempt.listing (listed : List String) (t : Attempt ε α) : Attempt ε α :=
  Task.listing listed t.run

theorem Task.listing_bind (listed : List String) (t : Job α) (f : α → Job β) :
    Task.listing listed (t >>= f) =
      Task.listing listed t >>= fun a => Task.listing listed (f a) := by
  induction t with
  | done a => rfl
  | ask action next ih =>
    have hbind : (Task.ask action next >>= f : Job β) =
        .ask action fun answer => next answer >>= f := rfl
    rw [hbind]
    cases action with
    | walk root => exact ih listed
    | _ => exact congrArg (Task.ask _) (funext ih)

theorem Attempt.listing_bind (listed : List String) (t : Attempt ε α) (f : α → Attempt ε β) :
    Attempt.listing listed (t >>= f) =
      Attempt.listing listed t >>= fun a => Attempt.listing listed (f a) := by
  refine (Task.listing_bind listed t.run (ExceptT.bindCont f)).trans ?_
  refine congrArg (Task.listing listed t.run >>= ·) (funext fun outcome => ?_)
  cases outcome <;> rfl

theorem Attempt.listing_lift (listed : List String) (job : Job α) :
    Attempt.listing listed (ExceptT.lift job : Attempt ε α) =
      ExceptT.lift (Task.listing listed job) :=
  Task.listing_bind listed job fun a => (pure (Except.ok a) : Job (Except ε α))

/-- A job that never lists files. -/
def ListsNothing (t : Attempt ε α) : Prop := ∀ listed, Attempt.listing listed t = t

namespace ListsNothing

theorem pure (a : α) : ListsNothing (Pure.pure a : Attempt ε α) := fun _ => rfl

theorem throw (e : ε) : ListsNothing (MonadExcept.throw e : Attempt ε α) := fun _ => rfl

theorem bind {t : Attempt ε α} {f : α → Attempt ε β} (ht : ListsNothing t)
    (hf : ∀ a, ListsNothing (f a)) : ListsNothing (t >>= f) := by
  intro listed
  rw [Attempt.listing_bind, ht listed]
  exact congrArg (t >>= ·) (funext fun a => hf a listed)

theorem ite {c : Prop} [Decidable c] {t u : Attempt ε α} (ht : ListsNothing t)
    (hu : ListsNothing u) : ListsNothing (if c then t else u) := by
  split
  · exact ht
  · exact hu

theorem settle {δ : Type} (cause : δ → ε) (found : Except δ α) :
    ListsNothing (Index.settle cause found) := by
  cases found with
  | ok a => exact pure a
  | error e => exact throw _

theorem call (cause : Store.StoreError → ε) (c : Store.Call) :
    ListsNothing (Index.call cause c) :=
  bind (fun _ => rfl) fun _ => settle cause _

theorem vectorsOf (fs : List Chunk.Fragment) : ListsNothing (Index.vectorsOf fs) :=
  ite (pure _) <| bind (fun _ => rfl) fun _ => bind (settle _ _) fun _ =>
    ite (bind (throw _) fun _ => pure _) (pure _)

theorem recordsOf (file : Store.Metadata) (pairs : List (Chunk.Fragment × Array Float32)) :
    ListsNothing (Index.recordsOf file pairs) := by
  induction pairs with
  | nil => exact pure _
  | cons p rest ih => exact bind (fun _ => rfl) fun _ => bind ih fun _ => pure _

theorem exchange (name path : String) (rs : List Store.Record) :
    ListsNothing (Index.exchange name path rs) :=
  bind (call _ _) fun _ => bind (call _ _) fun _ => bind (call _ _) fun _ => pure _

theorem renew (name path : String) (file : Store.Metadata)
    (found : Except IndexError (List Chunk.Fragment)) :
    ListsNothing (Index.renew name path file found) :=
  bind (settle _ _) fun fs => bind (vectorsOf fs) fun _ =>
    bind (recordsOf file _) fun _ => exchange name path _

theorem replace (o : Chunk.Options) (name path : String) :
    ListsNothing (Index.replace o name path) := by
  refine bind (call _ _) fun present => ?_
  cases present with
  | false => exact fun _ => rfl
  | true =>
    refine bind (fun _ => rfl) fun found => bind (settle _ found) fun source => ?_
    exact ite (pure _) (renew name path _ _)

end ListsNothing

theorem Task.listing_reconcileFile (listed : List String) (o : Chunk.Options)
    (name path : String) :
    Task.listing listed (reconcileFile o name path) = reconcileFile o name path := by
  have hreplace : Task.listing listed (replace o name path).run = (replace o name path).run :=
    ListsNothing.replace o name path listed
  simp only [reconcileFile, Task.listing_bind, hreplace]
  rfl

namespace ListsNothing

theorem lift {job : Job α} (h : ∀ listed, Task.listing listed job = job) :
    ListsNothing (ExceptT.lift job : Attempt ε α) := fun listed => by
  rw [Attempt.listing_lift, h listed]

theorem goOn (cause : Fault → ε) (outcome : Except IndexError FileReport) :
    ListsNothing (Index.goOn cause outcome) := by
  unfold Index.goOn
  cases faultOf outcome with
  | none => exact pure ()
  | some f => exact throw _

theorem reconcileFiles (o : Chunk.Options) (name : String) (paths : List String)
    (report : TreeReport) : ListsNothing (Index.reconcileFiles o name paths report) := by
  induction paths generalizing report with
  | nil => exact pure report
  | cons path rest ih =>
    exact bind (lift fun listed => Task.listing_reconcileFile listed o name path) fun outcome =>
      bind (goOn _ outcome) fun _ => ih _

end ListsNothing

end CodeIndex.Index
