import CodeIndex.Proofs.Index.Plan

/-! How far a replacement has got.  Each stage has one action, and the answer to it leads to the next
stage; what a replacement still has to do is the job of its stage. -/

namespace CodeIndex.Index

open CodeIndex.Embedding (EmbedError)
open Files (IoError)
open Store (Metadata Record StoreError)

theorem Task.andThen_done {Action : Type} {Answer : Action → Type} {α : Type}
    (t : Task Action Answer α) : t.andThen .done = t := by
  induction t with
  | done a => rfl
  | ask action next ih => exact congrArg (Task.ask action) (funext ih)

theorem Task.andThen_assoc {Action : Type} {Answer : Action → Type} {α β γ : Type}
    (t : Task Action Answer α) (f : α → Task Action Answer β) (g : β → Task Action Answer γ) :
    (t.andThen f).andThen g = t.andThen fun a => (f a).andThen g := by
  induction t with
  | done a => rfl
  | ask action next ih => exact congrArg (Task.ask action) (funext ih)

instance {Action : Type} {Answer : Action → Type} : LawfulMonad (Task Action Answer) :=
  LawfulMonad.mk' _ Task.andThen_done (fun _ _ => rfl) Task.andThen_assoc

/-- A fragment with the vector for it. -/
abbrev Pair := Chunk.Fragment × Array Float32

/-- The stages of a replacement. -/
inductive Progress where
  | check
  | read
  | embed (file : Metadata) (f : Chunk.Fragment) (fs : List Chunk.Fragment)
  | name (file : Metadata) (named : List Record) (pair : Pair) (todo : List Pair)
  | find (rs : List Record)
  | delete (rs : List Record) (stale : List String)
  | store (rs : List Record) (removed : Nat)
  | finished (outcome : Except IndexError FileReport)

namespace Progress

/-- The stage at which the records that are named so far are followed by those of `todo`. -/
def naming (file : Metadata) (named : List Record) : List Pair → Progress
  | [] => find named
  | pair :: todo => name file named pair todo

/-- The stage at which a plan is carried out. -/
def ofPlan : Plan → Progress
  | .keep outcome => finished outcome
  | .swap file pairs => naming file [] pairs

def afterCheck (collection : String) : Except StoreError Bool → Progress
  | .error e => finished (.error (.store e))
  | .ok present => if present then read else finished (.error (.collectionMissing collection))

/-- Without fragments there is nothing to embed. -/
def afterFound (file : Metadata) : Except IndexError (List Chunk.Fragment) → Progress
  | .error e => finished (.error e)
  | .ok [] => find []
  | .ok (f :: fs) => embed file f fs

def afterRead (o : Chunk.Options) (path : String) : Except IoError SourceFile → Progress
  | .error e => finished (.error (.io e))
  | .ok source =>
    if source.text.isEmpty then finished (.ok { skippedEmpty := true })
    else afterFound (fileMetadata path source) (fragmentsOf o source.text)

def afterEmbed (file : Metadata) (fs : List Chunk.Fragment)
    (answer : Except EmbedError (List (Array Float32))) : Progress :=
  ofPlan (.renewing (fun _ => answer) file (.ok fs))

def afterFind (rs : List Record) : Except StoreError (List String) → Progress
  | .error e => finished (.error (.store e))
  | .ok stale => delete rs stale

def afterDelete (rs : List Record) (removed : Nat) : Except StoreError Unit → Progress
  | .error e => finished (.error (.store e))
  | .ok _ => store rs removed

def afterStore (rs : List Record) (removed : Nat) : Except StoreError Unit → Progress
  | .error e => finished (.error (.store e))
  | .ok _ => finished (.ok { fragments := rs.length, removed })

/-- The next action, and the stage that its answer leads to. -/
def pending (o : Chunk.Options) (collection path : String) :
    Progress → Option ((action : Action) × (action.Answer → Progress))
  | check => some ⟨.store (.contains collection), afterCheck collection⟩
  | read => some ⟨.read path, afterRead o path⟩
  | embed file f fs => some ⟨.embed ((f :: fs).map fragmentText), afterEmbed file (f :: fs)⟩
  | name file named pair todo =>
    some ⟨.freshId, fun id =>
      naming file (named ++ [fragmentRecord file pair.1 pair.2 id]) todo⟩
  | find rs => some ⟨.store (.find collection (.forFile path)), afterFind rs⟩
  | delete rs stale => some ⟨.store (.deleteIds collection stale), afterDelete rs stale.length⟩
  | store rs removed => some ⟨.store (.upsert collection rs), afterStore rs removed⟩
  | finished _ => none

/-- What is left to do at a stage. -/
def job (o : Chunk.Options) (collection path : String) : Progress → Attempt IndexError FileReport
  | check => replace o collection path
  | read => do
    let source ← settle .io (← act (.read path))
    if source.text.isEmpty then return { skippedEmpty := true }
    renew collection path (fileMetadata path source) (fragmentsOf o source.text)
  | embed file f fs => renew collection path file (.ok (f :: fs))
  | name file named pair todo => do
    let more ← recordsOf file (pair :: todo)
    exchange collection path (named ++ more)
  | find rs => exchange collection path rs
  | delete rs stale => do
    call .store (.deleteIds collection stale)
    call .store (.upsert collection rs)
    return { fragments := rs.length, removed := stale.length }
  | store rs removed => do
    call .store (.upsert collection rs)
    return { fragments := rs.length, removed }
  | finished outcome => ExceptT.mk (.done outcome)

variable {o : Chunk.Options} {collection path : String} {pr : Progress} {action : Action}
  {next : action.Answer → Progress}

theorem job_naming (file : Metadata) (named : List Record) (todo : List Pair) :
    (naming file named todo).job o collection path =
      recordsOf file todo >>= fun more => exchange collection path (named ++ more) := by
  cases todo with
  | nil =>
    rw [recordsOf, pure_bind, List.append_nil]
    rfl
  | cons pair todo => rfl

theorem job_afterFound (file : Metadata)
    (found : Except IndexError (List Chunk.Fragment)) :
    (afterFound file found).job o collection path = renew collection path file found := by
  cases found with
  | error e => rfl
  | ok fs =>
    cases fs with
    | nil => rfl
    | cons f fs => rfl

theorem job_afterRead (found : Except IoError SourceFile) :
    (afterRead o path found).job o collection path =
      settle .io found >>= fun source =>
        if source.text.isEmpty then pure { skippedEmpty := true }
        else renew collection path (fileMetadata path source) (fragmentsOf o source.text) := by
  cases found with
  | error e => rfl
  | ok source =>
    rw [afterRead, settle, pure_bind]
    cases source.text.isEmpty with
    | true => rfl
    | false => exact job_afterFound _ _

theorem job_afterEmbed (file : Metadata) (f : Chunk.Fragment) (fs : List Chunk.Fragment)
    (answer : Except EmbedError (List (Array Float32))) :
    (afterEmbed file (f :: fs) answer).job o collection path =
      settle .embed answer >>= fun vectors =>
        if vectors.length ≠ (f :: fs).length then
          throw (.embed (.countMismatch (f :: fs).length vectors.length))
        else recordsOf file ((f :: fs).zip vectors) >>= exchange collection path := by
  cases answer with
  | error e => rfl
  | ok vectors =>
    rw [afterEmbed, Plan.renewing, pairsBy, vectorsBy, settle, pure_bind]
    by_cases hlength : vectors.length = (f :: fs).length
    · simp only [hlength, List.isEmpty_cons, Bool.false_eq_true, if_false, if_true, ne_eq,
        not_true_eq_false]
      exact job_naming file [] _
    · simp only [hlength, List.isEmpty_cons, Bool.false_eq_true, if_false, ne_eq,
        not_false_eq_true, if_true]
      rfl

theorem renew_of_cons (file : Metadata) (f : Chunk.Fragment) (fs : List Chunk.Fragment) :
    renew collection path file (.ok (f :: fs)) =
      act (.embed ((f :: fs).map fragmentText)) >>= fun answer =>
        (afterEmbed file (f :: fs) answer).job o collection path := by
  simp only [renew, settle, vectorsOf, pure_bind, List.isEmpty_cons, Bool.false_eq_true, if_false,
    bind_assoc]
  refine congrArg (act _ >>= ·) (funext fun answer => ?_)
  rw [job_afterEmbed]
  cases answer with
  | error e => rfl
  | ok vectors =>
    simp only [settle, pure_bind]
    by_cases hlength : vectors.length = (f :: fs).length
    · simp only [hlength, ne_eq, not_true_eq_false, if_false, pure_bind]
    · simp only [hlength, ne_eq, not_false_eq_true, if_true]
      rfl

theorem recordsOf_cons (file : Metadata) (named : List Record) (pair : Pair) (todo : List Pair) :
    (recordsOf file (pair :: todo) >>= fun more => exchange collection path (named ++ more)) =
      act .freshId >>= fun id =>
        (naming file (named ++ [fragmentRecord file pair.1 pair.2 id]) todo).job o collection
          path := by
  simp only [job_naming, recordsOf, bind_assoc, pure_bind, List.append_assoc,
    List.singleton_append]

/-- The job of a stage asks for the stage's action, and goes on with the job of the next stage. -/
theorem job_of_pending (h : pr.pending o collection path = some ⟨action, next⟩) :
    (pr.job o collection path).run =
      .ask action fun answer => ((next answer).job o collection path).run := by
  cases pr with
  | check =>
    cases h
    refine congrArg (Task.ask _) (funext fun answer => ?_)
    cases answer with
    | error e => rfl
    | ok present => cases present <;> rfl
  | read =>
    cases h
    refine congrArg (Task.ask _) (funext fun answer => ?_)
    exact congrArg ExceptT.run (job_afterRead answer).symm
  | embed file f fs =>
    cases h
    exact congrArg ExceptT.run (renew_of_cons file f fs)
  | name file named pair todo =>
    cases h
    exact congrArg ExceptT.run (recordsOf_cons file named pair todo)
  | find rs =>
    cases h
    refine congrArg (Task.ask _) (funext fun answer => ?_)
    cases answer <;> rfl
  | delete rs stale =>
    cases h
    refine congrArg (Task.ask _) (funext fun answer => ?_)
    cases answer <;> rfl
  | store rs removed =>
    cases h
    refine congrArg (Task.ask _) (funext fun answer => ?_)
    cases answer <;> rfl
  | finished outcome => cases h

end Progress

end CodeIndex.Index
