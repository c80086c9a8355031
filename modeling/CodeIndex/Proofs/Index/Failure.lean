import CodeIndex.Proofs.Index.Progress
import CodeIndex.Proofs.Index.Replacement

/-! Replacements that fail before they write.  The collection is looked for, the file is read, its
text is cut into fragments, these are embedded, and the vectors are counted.  The first step that
fails decides the error, and until all of them have succeeded the store has been asked for nothing
but whether the collection is there. -/

namespace CodeIndex.Index

open Files (Entry IoError)
open Store (Memory Record StoreError)

/-- The calls of the store that an action makes. -/
def Action.storeCalls : Action → List Store.Call
  | .store c => [c]
  | _ => []

namespace World

variable {σ α β : Type} {w : World σ}

/-- The calls of the store that a job makes, in their order. -/
def calls : Job α → World σ → List Store.Call
  | .done _, _ => []
  | .ask action next, w =>
    action.storeCalls ++ calls (next (carryOut action w).1) (carryOut action w).2

theorem calls_bind (t : Job α) (f : α → Job β) :
    calls (t >>= f) w = calls t w ++ calls (f (finish t w).1) (finish t w).2 := by
  induction t generalizing w with
  | done a => rfl
  | ask action next ih =>
    have hbind : (Task.ask action next >>= f : Job β) =
        .ask action fun answer => next answer >>= f := rfl
    rw [hbind, calls, ih, calls, List.append_assoc, finish_ask]

end World

/-! ### Failures of the store -/

/-- A job that can fail in the store only. -/
def FailsInStore {α : Type} (t : Attempt IndexError α) : Prop :=
  ∀ {σ : Type} (w : World σ) (e : IndexError), (World.attempt t w).1 = .error e →
    ∃ reason, e = .store reason

namespace FailsInStore

open World

variable {α β : Type}

theorem pure (a : α) : FailsInStore (Pure.pure a : Attempt IndexError α) := by
  intro σ w e h
  rw [attempt_pure] at h
  cases h

theorem call (c : Store.Call) : FailsInStore (Index.call .store c) := by
  intro σ w e h
  rw [attempt_call] at h
  cases hanswer : (w.services.store w.state c).1 with
  | error reason =>
    rw [hanswer] at h
    cases h
    exact ⟨reason, rfl⟩
  | ok result =>
    rw [hanswer] at h
    cases h

theorem bind {t : Attempt IndexError α} {f : α → Attempt IndexError β} (ht : FailsInStore t)
    (hf : ∀ a, FailsInStore (f a)) : FailsInStore (t >>= f) := by
  intro σ w e h
  rw [attempt_bind] at h
  have hfirst := ht w
  rcases hrun : attempt t w with ⟨outcome, after⟩
  rw [hrun] at h hfirst
  cases outcome with
  | error reason =>
    cases h
    exact hfirst _ rfl
  | ok a => exact hf a after e h

theorem recordsOf (file : Store.Metadata) (pairs : List Pair) :
    FailsInStore (Index.recordsOf file pairs) := by
  intro σ w e h
  rw [attempt_recordsOf] at h
  cases h

theorem exchange (name path : String) (rs : List Record) :
    FailsInStore (Index.exchange name path rs) :=
  bind (call _) fun _ => bind (call _) fun _ => bind (call _) fun _ => pure _

theorem naming {o : Chunk.Options} {name path : String} (file : Store.Metadata)
    (named : List Record) (todo : List Pair) :
    FailsInStore ((Progress.naming file named todo).job o name path) := by
  rw [Progress.job_naming]
  exact bind (recordsOf file todo) fun _ => exchange name path _

end FailsInStore

/-! ### The first failure -/

/-- Looking for a collection and embedding leave alone what a view shows of the state. -/
structure Services.Keeps {σ β : Type} (services : Services σ) (view : σ → β) : Prop where
  looking : ∀ s other, view (services.store s (.contains other)).2 = view s
  embedding : ∀ s texts, view (services.embed s texts).2 = view s

theorem Services.keeps_memory (embed : Embedder) : (Services.memory embed).Keeps id :=
  ⟨fun _ _ => rfl, fun _ _ => rfl⟩

/-- With fragments, the stage after embedding hangs on whether there is a vector for each. -/
theorem Progress.afterEmbed_eq {file : Store.Metadata} {fs : List Chunk.Fragment} (hfs : fs ≠ [])
    (answer : Except Embedding.EmbedError (List (Array Float32))) :
    afterEmbed file fs answer =
      match answer with
      | .error reason => finished (.error (.embed reason))
      | .ok vectors =>
        if vectors.length = fs.length then naming file [] (fs.zip vectors)
        else finished (.error (.embed (.countMismatch fs.length vectors.length))) := by
  have hempty : fs.isEmpty = false := by simpa using hfs
  rw [afterEmbed, Plan.renewing, pairsBy, vectorsBy, hempty, if_neg Bool.false_ne_true]
  cases answer with
  | error reason => rfl
  | ok vectors =>
    by_cases hcount : vectors.length = fs.length
    · simp only [hcount, if_true]
      rfl
    · simp only [hcount, if_false]
      rfl

section

variable {σ : Type} (services : Services σ) (state : σ) (files : Entry) (o : Chunk.Options)
  (name path : String)

/-- The collection is there, and the file has a text. -/
structure HasText (source : SourceFile) : Prop where
  present : (services.store state (.contains name)).1 = .ok true
  read : readSource files path = .ok source
  text : source.text ≠ ""

/-- What the embedder says of fragments once the collection has been looked for. -/
def embedded (fs : List Chunk.Fragment) : Except Embedding.EmbedError (List (Array Float32)) :=
  (services.embed (services.store state (.contains name)).2 (fs.map fragmentText)).1

/-- The error of the first step that fails, all those before it having succeeded. -/
inductive FirstFailure : IndexError → Prop
  | unavailable {reason : StoreError}
      (hcheck : (services.store state (.contains name)).1 = .error reason) :
      FirstFailure (.store reason)
  | missing (hcheck : (services.store state (.contains name)).1 = .ok false) :
      FirstFailure (.collectionMissing name)
  | unreadable {reason : IoError} (hcheck : (services.store state (.contains name)).1 = .ok true)
      (hread : readSource files path = .error reason) : FirstFailure (.io reason)
  | unparsable {source : SourceFile} {place : Syntax.Position}
      (hsource : HasText services state files name path source)
      (hfound : fragmentsOf o source.text = .error (.chunk place)) : FirstFailure (.chunk place)
  | oversized {source : SourceFile} (hsource : HasText services state files name path source)
      (hfound : fragmentsOf o source.text = .error (.fault .overflow)) :
      FirstFailure (.fault .overflow)
  | unembedded {source : SourceFile} {fs : List Chunk.Fragment} {reason : Embedding.EmbedError}
      (hsource : HasText services state files name path source)
      (hfound : fragmentsOf o source.text = .ok fs) (hfs : fs ≠ [])
      (hembed : embedded services state name fs = .error reason) : FirstFailure (.embed reason)
  | miscounted {source : SourceFile} {fs : List Chunk.Fragment} {vectors : List (Array Float32)}
      (hsource : HasText services state files name path source)
      (hfound : fragmentsOf o source.text = .ok fs) (hfs : fs ≠ [])
      (hembed : embedded services state name fs = .ok vectors)
      (hcount : vectors.length ≠ fs.length) :
      FirstFailure (.embed (.countMismatch fs.length vectors.length))

end

namespace World

variable {σ : Type} {w v : World σ} {o : Chunk.Options} {name path : String} {pr : Progress}
  {made : List Store.Call}

/-- A replacement has come to a stage and a world, with certain calls of the store so far. -/
structure Reaches (o : Chunk.Options) (name path : String) (w : World σ) (pr : Progress)
    (v : World σ) (made : List Store.Call) : Prop where
  rest : attempt (replace o name path) w = attempt (pr.job o name path) v
  calls_rest : calls (replace o name path).run w = made ++ calls (pr.job o name path).run v

namespace Reaches

theorem start : Reaches o name path w .check w [] := ⟨rfl, rfl⟩

/-- An action leads to the next stage. -/
theorem step (h : Reaches o name path w pr v made) {action : Action}
    {next : action.Answer → Progress} (hpending : pr.pending o name path = some ⟨action, next⟩) :
    Reaches o name path w (next (carryOut action v).1) (carryOut action v).2
      (made ++ action.storeCalls) where
  rest := by
    rw [h.rest, attempt, Progress.job_of_pending hpending, finish_ask, attempt]
  calls_rest := by
    rw [h.calls_rest, Progress.job_of_pending hpending, calls, List.append_assoc]

theorem outcome {found : Except IndexError FileReport}
    (h : Reaches o name path w (.finished found) v made) :
    attempt (replace o name path) w = (found, v) ∧ calls (replace o name path).run w = made :=
  ⟨h.rest, by rw [h.calls_rest]; exact List.append_nil made⟩

theorem failsInStore (h : Reaches o name path w pr v made)
    (hlate : FailsInStore (pr.job o name path)) {e : IndexError}
    (he : (attempt (replace o name path) w).1 = .error e) : ∃ reason, e = .store reason :=
  hlate v e (h.rest ▸ he)

end Reaches

/-- The world after the collection was looked for. -/
def afterLooking (w : World σ) (name : String) : World σ :=
  { w with state := (w.services.store w.state (.contains name)).2 }

/-- The world after fragments were embedded, too. -/
def afterEmbedding (w : World σ) (name : String) (fs : List Chunk.Fragment) : World σ :=
  { w with
    state := (w.services.embed (w.afterLooking name).state (fs.map fragmentText)).2 }

theorem reaches_checked {answer : Except StoreError Bool}
    (hcheck : (w.services.store w.state (.contains name)).1 = answer) :
    Reaches o name path w (.afterCheck name answer) (w.afterLooking name) [.contains name] := by
  subst hcheck
  exact Reaches.start.step rfl

theorem reaches_read (hcheck : (w.services.store w.state (.contains name)).1 = .ok true) :
    Reaches o name path w (.afterRead o path (readSource w.files path)) (w.afterLooking name)
      [.contains name] :=
  (reaches_checked hcheck).step rfl

section

variable {source : SourceFile} (hsource : HasText w.services w.state w.files name path source)
include hsource

theorem reaches_found :
    Reaches o name path w (.afterFound (fileMetadata path source) (fragmentsOf o source.text))
      (w.afterLooking name) [.contains name] := by
  have h : Reaches o name path w _ _ _ := reaches_read hsource.present
  have hempty : source.text.isEmpty = false := by simpa using hsource.text
  rw [hsource.read, Progress.afterRead, hempty, if_neg Bool.false_ne_true] at h
  exact h

theorem reaches_embedded {fs : List Chunk.Fragment} (hfound : fragmentsOf o source.text = .ok fs)
    (hfs : fs ≠ []) :
    Reaches o name path w
      (.afterEmbed (fileMetadata path source) fs (embedded w.services w.state name fs))
      (w.afterEmbedding name fs) [.contains name] := by
  have h : Reaches o name path w _ _ _ := reaches_found hsource
  rw [hfound] at h
  cases fs with
  | nil => exact absurd rfl hfs
  | cons f fs => exact h.step rfl

end

/-- A replacement that fails before it writes ends with its first failure, having asked the store
nothing more than whether the collection is there. -/
theorem FirstFailure.reaches {e : IndexError}
    (h : FirstFailure w.services w.state w.files o name path e) :
    Reaches o name path w (.finished (.error e)) (w.afterLooking name) [.contains name] ∨
      ∃ fs, Reaches o name path w (.finished (.error e)) (w.afterEmbedding name fs)
        [.contains name] := by
  cases h with
  | unavailable hcheck => exact .inl (reaches_checked hcheck)
  | missing hcheck => exact .inl (reaches_checked hcheck)
  | unreadable hcheck hread =>
    have hstage : Reaches o name path w _ _ _ := reaches_read hcheck
    rw [hread] at hstage
    exact .inl hstage
  | unparsable hsource hfound =>
    have hstage := reaches_found (o := o) hsource
    rw [hfound] at hstage
    exact .inl hstage
  | oversized hsource hfound =>
    have hstage := reaches_found (o := o) hsource
    rw [hfound] at hstage
    exact .inl hstage
  | unembedded hsource hfound hfs hembed =>
    have hstage := reaches_embedded hsource hfound hfs
    rw [hembed, Progress.afterEmbed_eq hfs] at hstage
    exact .inr ⟨_, hstage⟩
  | miscounted hsource hfound hfs hembed hcount =>
    have hstage := reaches_embedded hsource hfound hfs
    simp only [hembed, Progress.afterEmbed_eq hfs, if_neg hcount] at hstage
    exact .inr ⟨_, hstage⟩

/-- Without a first failure a replacement has nothing to do, or comes to where it writes. -/
theorem failsInStore_of_not_firstFailure
    (h : ∀ e, ¬ FirstFailure w.services w.state w.files o name path e) {e : IndexError}
    (he : (attempt (replace o name path) w).1 = .error e) : ∃ reason, e = .store reason := by
  cases hcheck : (w.services.store w.state (.contains name)).1 with
  | error reason => exact absurd (.unavailable hcheck) (h _)
  | ok present =>
    cases present with
    | false => exact absurd (.missing hcheck) (h _)
    | true =>
      have hstage : Reaches o name path w _ _ _ := reaches_read hcheck
      cases hread : readSource w.files path with
      | error reason => exact absurd (.unreadable hcheck hread) (h _)
      | ok source =>
        by_cases htext : source.text = ""
        · -- an empty file leaves its records as they are
          rw [hread, Progress.afterRead, htext] at hstage
          rw [hstage.outcome.1] at he
          cases he
        · have hsource : HasText w.services w.state w.files name path source :=
            ⟨hcheck, hread, htext⟩
          cases hfound : fragmentsOf o source.text with
          | error e =>
            rcases fragmentsOf_eq_error_iff.1 hfound with ⟨place, -, rfl⟩ | ⟨-, -, rfl⟩
            · exact absurd (.unparsable hsource hfound) (h _)
            · exact absurd (.oversized hsource hfound) (h _)
          | ok fs =>
            by_cases hfs : fs = []
            · have hwriting := reaches_found (o := o) hsource
              rw [hfound, hfs] at hwriting
              exact hwriting.failsInStore (FailsInStore.exchange name path []) he
            · have hwriting := reaches_embedded hsource hfound hfs
              rw [Progress.afterEmbed_eq hfs] at hwriting
              cases hembed : embedded w.services w.state name fs with
              | error reason => exact absurd (.unembedded hsource hfound hfs hembed) (h _)
              | ok vectors =>
                by_cases hcount : vectors.length = fs.length
                · simp only [hembed, if_pos hcount] at hwriting
                  exact hwriting.failsInStore (FailsInStore.naming _ _ _) he
                · exact absurd (.miscounted hsource hfound hfs hembed hcount) (h _)

/-- All calls of the store that the job of a file makes are those of the replacement. -/
theorem calls_reconcileFile (w : World σ) (o : Chunk.Options) (name path : String) :
    ∃ held : Locks, calls (reconcileFile o name path) w =
      calls (replace o name path).run { w with locks := held } := by
  refine ⟨(w.locks.lockFor (lockKey name path)).2.acquire (w.locks.lockFor (lockKey name path)).1,
    ?_⟩
  simp only [reconcileFile, calls_bind]
  exact List.append_nil _

theorem FirstFailure.stops {e : IndexError}
    (h : FirstFailure w.services w.state w.files o name path e) :
    (attempt (replace o name path) w).1 = .error e ∧
      calls (replace o name path).run w = [.contains name] ∧
      ∀ {β : Type} (view : σ → β), w.services.Keeps view →
        view (attempt (replace o name path) w).2.state = view w.state := by
  rcases FirstFailure.reaches h with hstage | ⟨fs, hstage⟩
  · obtain ⟨hattempt, hcalls⟩ := hstage.outcome
    rw [hattempt]
    exact ⟨rfl, hcalls, fun view hkeeps => hkeeps.looking _ _⟩
  · obtain ⟨hattempt, hcalls⟩ := hstage.outcome
    rw [hattempt]
    exact ⟨rfl, hcalls, fun view hkeeps => (hkeeps.embedding _ _).trans (hkeeps.looking _ _)⟩

/-- An error is the first failure, or it comes from the store where the replacement writes. -/
theorem firstFailure_or_store {e : IndexError}
    (he : (attempt (replace o name path) w).1 = .error e) :
    FirstFailure w.services w.state w.files o name path e ∨ ∃ reason, e = .store reason := by
  by_cases hfailure : ∃ first, FirstFailure w.services w.state w.files o name path first
  · obtain ⟨first, hfirst⟩ := hfailure
    obtain rfl := Except.error.inj (he.symm.trans (FirstFailure.stops hfirst).1)
    exact .inl hfirst
  · exact .inr (failsInStore_of_not_firstFailure (fun first hfirst => hfailure ⟨first, hfirst⟩) he)

/-- The first step that fails decides the error of bringing a file up to date.  After an error that
is not the store's, the store has been asked for nothing but whether the collection is there; what
this and embedding leave alone is as it was. -/
theorem reconcileFile_stops_at_first_failure (w : World σ) (o : Chunk.Options)
    (name path : String) :
    (∀ e, FirstFailure w.services w.state w.files o name path e →
      (finish (reconcileFile o name path) w).1 = .error e) ∧
    ∀ e, (finish (reconcileFile o name path) w).1 = .error e → (∀ reason, e ≠ .store reason) →
      FirstFailure w.services w.state w.files o name path e ∧
      calls (reconcileFile o name path) w = [.contains name] ∧
      ∀ {β : Type} (view : σ → β), w.services.Keeps view →
        view (finish (reconcileFile o name path) w).2.state = view w.state := by
  obtain ⟨held, left, hfinish⟩ := w.finish_reconcileFile o name path
  obtain ⟨taken, hcalls⟩ := w.calls_reconcileFile o name path
  rw [hfinish, hcalls]
  refine ⟨fun e h => (FirstFailure.stops (w := { w with locks := held }) h).1,
    fun e he hstore => ?_⟩
  rcases firstFailure_or_store (w := { w with locks := held }) he with hfirst | ⟨reason, hreason⟩
  · obtain ⟨-, -, hview⟩ := FirstFailure.stops (w := { w with locks := held }) hfirst
    exact ⟨hfirst, (FirstFailure.stops (w := { w with locks := taken }) hfirst).2.1, hview⟩
  · exact absurd hreason (hstore reason)

/-- A store with a record of a file that is a byte order mark by now, and an embedder that gives no
vectors. -/
def markedFile : World Memory where
  services := .memory fun _ => .ok []
  state := (Memory.empty 0).set "code"
    (Store.Collection.empty.insert
      ⟨"1", ⟨#[], .empty⟩, "old", ⟨"a.js", "a.js", "js", 3, 0, 1, 1⟩⟩)
  files := .directory [("a.js", .file "\uFEFF".toUTF8 0)]
  ids n := String.ofList (List.replicate n 'x')

theorem reconcileFile_stops_at_first_failure_markedFile :
    (finish (reconcileFile {} "code" "a.js") markedFile).1 = .error (.embed (.countMismatch 1 0)) ∧
      calls (reconcileFile {} "code" "a.js") markedFile = [.contains "code"] ∧
      (finish (reconcileFile {} "code" "a.js") markedFile).2.state = markedFile.state := by
  have hsource : HasText markedFile.services markedFile.state markedFile.files "code" "a.js"
      ⟨"\uFEFF", 3, 0⟩ := ⟨rfl, by decide +kernel, by decide⟩
  have hfirst : FirstFailure markedFile.services markedFile.state markedFile.files {} "code" "a.js"
      (.embed (.countMismatch 1 0)) :=
    .miscounted hsource fragmentsOf_mark (by decide) rfl (by decide)
  obtain ⟨hdecides, hstops⟩ := reconcileFile_stops_at_first_failure markedFile {} "code" "a.js"
  obtain ⟨-, hcalls, hview⟩ := hstops _ (hdecides _ hfirst) (fun _ h => nomatch h)
  have hstate := hview id (Services.keeps_memory _)
  rw [id_eq, id_eq] at hstate
  exact ⟨hdecides _ hfirst, hcalls, hstate⟩

end World

end CodeIndex.Index
