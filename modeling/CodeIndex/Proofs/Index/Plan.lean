import CodeIndex.Index.Reconcile
import CodeIndex.Proofs.Index.Run
import CodeIndex.Proofs.Store.Memory

/-! What a replacement does, as a function of what it sees.  From the collection, the file and the
embedder follows a plan: to leave the store as it is, or to store certain fragments with certain
vectors in place of the file's records.  Carrying out the replacement carries out its plan. -/

namespace CodeIndex.Index

open CodeIndex.Embedding (EmbedError)
open Files (Entry IoError)
open Store (Collection Memory Metadata Record)

/-- What gives the vectors of texts. -/
abbrev Embedder := List String → Except EmbedError (List (Array Float32))

/-- The vectors that an embedder gives for fragments, if there is one for each. -/
def vectorsBy (embed : Embedder) (fs : List Chunk.Fragment) :
    Except IndexError (List (Array Float32)) :=
  match if fs.isEmpty then .ok [] else embed (fs.map fragmentText) with
  | .error e => .error (.embed e)
  | .ok vectors =>
    if vectors.length = fs.length then .ok vectors
    else .error (.embed (.countMismatch fs.length vectors.length))

/-- What a replacement has decided on before it touches the store. -/
inductive Plan where
  | keep (outcome : Except IndexError FileReport)
  | swap (file : Metadata) (pairs : List (Chunk.Fragment × Array Float32))

/-- The fragments that were found with the vectors that an embedder gives for them. -/
def pairsBy (embed : Embedder) :
    Except IndexError (List Chunk.Fragment) →
      Except IndexError (List (Chunk.Fragment × Array Float32))
  | .error e => .error e
  | .ok fs =>
    match vectorsBy embed fs with
    | .error e => .error e
    | .ok vectors => .ok (fs.zip vectors)

theorem vectorsBy_eq_error {embed : Embedder} {fs : List Chunk.Fragment} {e : IndexError}
    (h : vectorsBy embed fs = .error e) : fs ≠ [] ∧ ∃ reason, e = .embed reason := by
  cases fs with
  | nil => cases h
  | cons f fs =>
    refine ⟨List.cons_ne_nil _ _, ?_⟩
    unfold vectorsBy at h
    split at h
    · cases h
      exact ⟨_, rfl⟩
    · split at h
      · cases h
      · cases h
        exact ⟨_, rfl⟩

theorem pairsBy_eq_error {embed : Embedder} {found : Except IndexError (List Chunk.Fragment)}
    {e : IndexError} (h : pairsBy embed found = .error e) :
    found = .error e ∨ ∃ reason, e = .embed reason := by
  cases found with
  | error cause =>
    cases h
    exact .inl rfl
  | ok fs =>
    rw [pairsBy] at h
    cases hvectors : vectorsBy embed fs with
    | ok vectors =>
      rw [hvectors] at h
      cases h
    | error cause =>
      rw [hvectors] at h
      cases h
      exact .inr (vectorsBy_eq_error hvectors).2

/-- The plan for the fragments that were found. -/
def Plan.renewing (embed : Embedder) (file : Metadata)
    (found : Except IndexError (List Chunk.Fragment)) : Plan :=
  match pairsBy embed found with
  | .error e => .keep (.error e)
  | .ok pairs => .swap file pairs

/-- The plan that follows from whether the collection is there, the file, and the embedder. -/
def plan (o : Chunk.Options) (collection path : String) (present : Bool)
    (found : Except IoError SourceFile) (embed : Embedder) : Plan :=
  if !present then .keep (.error (.collectionMissing collection))
  else match found with
    | .error e => .keep (.error (.io e))
    | .ok source =>
      if source.text.isEmpty then .keep (.ok { skippedEmpty := true })
      else .renewing embed (fileMetadata path source) (fragmentsOf o source.text)

theorem renewing_eq_swap_iff {embed : Embedder} {file other : Metadata}
    {found : Except IndexError (List Chunk.Fragment)}
    {pairs : List (Chunk.Fragment × Array Float32)} :
    Plan.renewing embed file found = .swap other pairs ↔
      other = file ∧ pairsBy embed found = .ok pairs := by
  unfold Plan.renewing
  cases pairsBy embed found with
  | error e => simp
  | ok pairs => simp [eq_comm]

theorem plan_of_text (o : Chunk.Options) (name path : String) (embed : Embedder)
    {source : SourceFile} (htext : source.text ≠ "") :
    plan o name path true (.ok source) embed =
      .renewing embed (fileMetadata path source) (fragmentsOf o source.text) := by
  have hempty : source.text.isEmpty = false := by simpa using htext
  unfold plan
  simp only [Bool.not_true, Bool.false_eq_true, if_false, hempty]

/-- Only the records of a file with text, in a collection that is there, are exchanged. -/
theorem plan_eq_swap_iff {o : Chunk.Options} {name path : String} {present : Bool}
    {found : Except IoError SourceFile} {embed : Embedder} {file : Metadata}
    {pairs : List (Chunk.Fragment × Array Float32)} :
    plan o name path present found embed = .swap file pairs ↔
      present = true ∧ ∃ source, found = .ok source ∧ source.text ≠ "" ∧
        file = fileMetadata path source ∧
        pairsBy embed (fragmentsOf o source.text) = .ok pairs := by
  unfold plan
  cases present with
  | false => simp
  | true =>
    cases found with
    | error e => simp
    | ok source =>
      by_cases htext : source.text = ""
      · simp [htext]
      · rw [← plan, plan_of_text o name path embed htext]
        simp [htext, renewing_eq_swap_iff]

/-- The errors that end a replacement before it touches the store. -/
theorem plan_eq_keep_error {o : Chunk.Options} {name path : String} {present : Bool}
    {found : Except IoError SourceFile} {embed : Embedder} {e : IndexError}
    (h : plan o name path present found embed = .keep (.error e)) :
    e = .collectionMissing name ∨ (∃ reason, e = .io reason) ∨ (∃ reason, e = .embed reason) ∨
      ∃ source, found = .ok source ∧ fragmentsOf o source.text = .error e := by
  cases present with
  | false =>
    cases h
    exact .inl rfl
  | true =>
    cases found with
    | error reason =>
      cases h
      exact .inr (.inl ⟨reason, rfl⟩)
    | ok source =>
      by_cases htext : source.text = ""
      · simp [plan, htext] at h
      · rw [plan_of_text o name path embed htext, Plan.renewing] at h
        cases hpairs : pairsBy embed (fragmentsOf o source.text) with
        | ok pairs =>
          rw [hpairs] at h
          cases h
        | error cause =>
          rw [hpairs] at h
          cases h
          rcases pairsBy_eq_error hpairs with hfound | hembed
          · exact .inr (.inr (.inr ⟨source, rfl, hfound⟩))
          · exact .inr (.inr (.inl hembed))

/-- The records of fragments with their vectors under identifiers. -/
def recordsUnder (file : Metadata) (pairs : List (Chunk.Fragment × Array Float32))
    (ids : List String) : List Record :=
  List.zipWith (fun p id => fragmentRecord file p.1 p.2 id) pairs ids

theorem recordsUnder_ids {file : Metadata} {pairs : List (Chunk.Fragment × Array Float32)}
    {ids : List String} (h : ids.length = pairs.length) :
    (recordsUnder file pairs ids).map Record.id = ids := by
  induction pairs generalizing ids with
  | nil => rw [List.length_eq_zero_iff.1 h]; rfl
  | cons p rest ih =>
    cases ids with
    | nil => exact absurd h.symm (Nat.succ_ne_zero _)
    | cons id more =>
      exact congrArg (id :: ·) (ih (Nat.succ.inj h))

theorem length_recordsUnder {file : Metadata} {pairs : List (Chunk.Fragment × Array Float32)}
    {ids : List String} (h : ids.length = pairs.length) :
    (recordsUnder file pairs ids).length = pairs.length := by
  rw [recordsUnder, List.length_zipWith, h, Nat.min_self]

theorem filePath_of_mem_recordsUnder {file : Metadata}
    {pairs : List (Chunk.Fragment × Array Float32)} {ids : List String} {r : Record}
    (h : r ∈ recordsUnder file pairs ids) : r.payload.metadata.filePath = file.filePath := by
  induction pairs generalizing ids with
  | nil => exact absurd h List.not_mem_nil
  | cons p rest ih =>
    cases ids with
    | nil => exact absurd h List.not_mem_nil
    | cons id more =>
      rcases List.mem_cons.1 h with rfl | h
      · rfl
      · exact ih h

/-- What comes of storing records in place of the `removed` records of a file. -/
def swapOutcome (m : Memory) (rs : List Record) (removed : Nat) : Except IndexError FileReport :=
  match m.refusal rs with
  | some e => .error (.store e)
  | none => .ok { fragments := rs.length, removed }

/-- A collection with other records of a file, if the store takes these. -/
def swapped (m : Memory) (c : Collection) (path : String) (rs : List Record) : Collection :=
  match m.refusal rs with
  | some _ => c.withoutFile path
  | none => (c.withoutFile path).insertAll rs

namespace World

variable {w : World Memory} {o : Chunk.Options} {name path : String} {embed : Embedder}

/-- The identifiers that are given out next. -/
def nextIds {σ : Type} (w : World σ) (count : Nat) : List String :=
  (List.range' w.used count).map w.ids

@[simp] theorem length_nextIds {σ : Type} (w : World σ) (count : Nat) :
    (w.nextIds count).length = count := by
  rw [nextIds, List.length_map, List.length_range']

theorem attempt_recordsOf {σ : Type} (w : World σ) (file : Metadata)
    (pairs : List (Chunk.Fragment × Array Float32)) :
    attempt (recordsOf file pairs) w =
      (.ok (recordsUnder file pairs (w.nextIds pairs.length)),
        { w with used := w.used + pairs.length }) := by
  induction pairs generalizing w with
  | nil => rfl
  | cons p rest ih =>
    obtain ⟨f, dense⟩ := p
    rw [recordsOf, attempt_bind, attempt_act]
    simp only [carryOut, attempt_bind, ih, attempt_pure]
    simp only [nextIds, List.length_cons, List.range'_succ, List.map_cons, recordsUnder,
      List.zipWith_cons_cons]
    rw [Nat.add_assoc, Nat.add_comm 1]

/-- Carries out a plan: new records get the identifiers that are given out next. -/
def carryOutPlan (name path : String) (p : Plan) (w : World Memory) :
    Except IndexError FileReport × World Memory :=
  match p with
  | .keep outcome => (outcome, w)
  | .swap file pairs =>
    attempt (exchange name path (recordsUnder file pairs (w.nextIds pairs.length)))
      { w with used := w.used + pairs.length }

section

variable (hservices : w.services = .memory embed)
include hservices

theorem carryOut_store (c : Store.Call) :
    carryOut (.store c) w =
      ((w.state.perform c).1, { w with state := (w.state.perform c).2 }) := by
  obtain ⟨services⟩ := w
  cases hservices
  rfl

theorem attempt_embed {ε : Type} (texts : List String) :
    (attempt (act (.embed texts)) w :
      Except ε (Except EmbedError (List (Array Float32))) × World Memory) =
      (.ok (embed texts), w) := by
  obtain ⟨services⟩ := w
  cases hservices
  rfl

theorem attempt_call_memory {ε : Type} (cause : Store.StoreError → ε) (c : Store.Call) :
    attempt (call cause c) w =
      ((w.state.perform c).1.mapError cause, { w with state := (w.state.perform c).2 }) := by
  rw [call, attempt_bind, attempt_act, carryOut_store hservices]
  exact attempt_settle cause _

theorem attempt_vectorsOf (fs : List Chunk.Fragment) :
    attempt (vectorsOf fs) w = (vectorsBy embed fs, w) := by
  rw [vectorsOf, vectorsBy]
  cases hfs : fs.isEmpty with
  | true =>
    rw [List.isEmpty_iff.1 hfs]
    rfl
  | false =>
    simp only [Bool.false_eq_true, if_false, attempt_bind, attempt_settle,
      attempt_embed hservices]
    cases embed (fs.map fragmentText) with
    | error e => rfl
    | ok vectors =>
      by_cases hlength : vectors.length = fs.length
      · simp [hlength]
      · simp [hlength]

theorem attempt_renew (file : Metadata)
    (found : Except IndexError (List Chunk.Fragment)) :
    attempt (renew name path file found) w =
      carryOutPlan name path (.renewing embed file found) w := by
  rw [renew, Plan.renewing, attempt_bind, attempt_settle]
  cases found with
  | error e => rfl
  | ok fs =>
    simp only [mapError_ok, attempt_bind, attempt_vectorsOf hservices, pairsBy]
    cases vectorsBy embed fs with
    | error e => rfl
    | ok vectors => simp only [attempt_recordsOf, carryOutPlan]

theorem attempt_replace :
    attempt (replace o name path) w =
      carryOutPlan name path
        (plan o name path (w.state.contains name) (readSource w.files path) embed) w := by
  have hcontains : (attempt (call .store (.contains name)) w : Except IndexError Bool × _) =
      (.ok (w.state.contains name), w) :=
    attempt_call_memory hservices _ _
  have hread : (attempt (act (.read path)) w :
      Except IndexError (Except IoError SourceFile) × World Memory) =
      (.ok (readSource w.files path), w) := rfl
  simp only [replace, plan, attempt_bind, hcontains]
  cases w.state.contains name with
  | false => simp only [Bool.not_false, if_true, attempt_bind, attempt_throw, carryOutPlan]
  | true =>
    simp only [Bool.not_true, Bool.false_eq_true, if_false, attempt_bind, attempt_settle, hread]
    cases readSource w.files path with
    | error e => simp only [mapError_error, carryOutPlan]
    | ok source =>
      simp only [mapError_ok]
      cases source.text.isEmpty with
      | true => simp only [if_true, attempt_pure, carryOutPlan]
      | false =>
        simp only [Bool.false_eq_true, if_false]
        exact attempt_renew hservices _ _

theorem attempt_exchange {c : Collection} (hc : w.state.collections.get? name = some c)
    (rs : List Record) :
    attempt (exchange name path rs) w =
      (swapOutcome w.state rs (c.forFile path).length,
        { w with state := w.state.set name (swapped w.state c path rs) }) := by
  have hfind : (attempt (call .store (.find name (.forFile path))) w :
      Except IndexError (List String) × _) = (.ok ((c.forFile path).map Record.id), w) := by
    refine (attempt_call_memory hservices _ _).trans ?_
    rw [Memory.perform_find_file hc]
    rfl
  have hdelete : (attempt (call .store (.deleteIds name ((c.forFile path).map Record.id))) w :
      Except IndexError Unit × _) =
      (.ok (), { w with state := w.state.set name (c.withoutFile path) }) := by
    refine (attempt_call_memory hservices _ _).trans ?_
    rw [Memory.perform_deleteIds hc]
    rfl
  have hupsert : ∀ v : World Memory, v.services = .memory embed →
      v.state = w.state.set name (c.withoutFile path) →
      (attempt (call .store (.upsert name rs)) v : Except IndexError Unit × _) =
        match w.state.refusal rs with
        | some e => (.error (.store e), v)
        | none =>
          (.ok (), { v with state := w.state.set name ((c.withoutFile path).insertAll rs) }) := by
    intro v hv hstate
    refine (attempt_call_memory hv _ _).trans ?_
    rw [hstate, Memory.perform_upsert Memory.get?_set_self, Memory.refusal_set]
    cases w.state.refusal rs with
    | some e => simp [← hstate]
    | none => simp [Memory.set_set]
  simp only [exchange, attempt_bind, hfind, hdelete]
  rw [hupsert { w with state := w.state.set name (c.withoutFile path) } hservices rfl,
    swapOutcome, swapped]
  cases w.state.refusal rs with
  | some e => rfl
  | none => simp

end

end World

end CodeIndex.Index
