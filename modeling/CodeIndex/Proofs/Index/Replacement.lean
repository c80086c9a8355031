import CodeIndex.Proofs.Index.Fragments
import CodeIndex.Proofs.Index.Plan
import CodeIndex.Proofs.Store.Contents

/-! What bringing a file up to date leaves in the store.  The records of the file are those of its
fragments and no others, everything else is as it was, and doing it again for the same file changes
nothing but the identifiers. -/

namespace CodeIndex

namespace Store

/-- What a record holds under its identifier. -/
def Record.content (r : Record) : HybridVector × Payload := (r.vector, r.payload)

theorem Memory.refusal_eq_none_iff {m : Memory} {rs : List Record} :
    m.refusal rs = none ↔ ∀ r ∈ rs, r.vector.dense.size = m.denseSize := by
  rw [refusal, Option.map_eq_none_iff, List.find?_eq_none]
  exact forall₂_congr fun r _ => by simp

end Store

namespace Index

open CodeIndex.Embedding (EmbedError)
open Files (Entry IoError)
open Store (Collection Memory Metadata Record)

/-- A record holds a fragment of a file: its text, the words in it, its lines, a dense vector, and
the facts about the file. -/
structure HoldsFragment (file : Metadata) (f : Chunk.Fragment) (dense : Array Float32)
    (r : Record) : Prop where
  code : r.payload.code = fragmentText f
  metadata : r.payload.metadata =
    { file with startLine := .ofNat f.startLine, endLine := .ofNat f.endLine }
  sparse : r.vector.sparse = .ofText (fragmentText f)
  dense : r.vector.dense = dense

/-- Between two states of a store the records of a path were exchanged for `rs`, and nothing else
was changed. -/
structure Exchanged (before after : Memory) (name path : String) (rs : List Record) : Prop where
  denseSize : after.denseSize = before.denseSize
  others : ∀ other, other ≠ name →
    after.collections.get? other = before.collections.get? other
  kept : ∀ c, before.collections.get? name = some c → ∃ d,
    after.collections.get? name = some d ∧ d.indexes = c.indexes ∧
      ∀ r : Record, r.payload.metadata.filePath ≠ path → (r ∈ d ↔ r ∈ c)
  records : (after.fileRecords name path).Perm rs

/-! ### The exchange in the store -/

section

variable {m : Memory} {c : Collection} {name path : String} {rs : List Record} {r : Record}

theorem swapped_of_taken (htaken : m.refusal rs = none) :
    swapped m c path rs = (c.withoutFile path).insertAll rs := by
  rw [swapped, htaken]

theorem indexes_swapped : (swapped m c path rs).indexes = c.indexes := by
  unfold swapped
  cases m.refusal rs <;> simp

theorem mem_or_mem_of_mem_swapped (hfits : c.Fits path rs) (h : r ∈ swapped m c path rs) :
    r ∈ rs ∨ r ∈ c := by
  cases hrefusal : m.refusal rs with
  | some e =>
    rw [swapped, hrefusal] at h
    exact .inr (Collection.mem_withoutFile.1 h).1
  | none =>
    rw [swapped_of_taken hrefusal, (hfits.withoutFile path).mem_insertAll] at h
    exact h.imp_right fun hr => (Collection.mem_withoutFile.1 hr).1

theorem exchanged_set_swapped (hc : m.collections.get? name = some c)
    (htaken : m.refusal rs = none) (hfits : c.Fits path rs) :
    Exchanged m (m.set name (swapped m c path rs)) name path rs where
  denseSize := rfl
  others other hother := Memory.get?_set_of_ne hother
  kept d hd := by
    obtain rfl : c = d := Option.some.inj (hc.symm.trans hd)
    refine ⟨_, Memory.get?_set_self, indexes_swapped, fun r hr => ?_⟩
    rw [swapped_of_taken htaken, (hfits.withoutFile path).mem_insertAll,
      Collection.mem_withoutFile]
    constructor
    · rintro (hrs | ⟨hrc, -⟩)
      · exact absurd (hfits.filePath r hrs) hr
      · exact hrc
    · exact fun hrc => .inr ⟨hrc, hr⟩
  records := by
    rw [Memory.fileRecords_set_self, swapped_of_taken htaken]
    exact (hfits.withoutFile path).forFile_self Collection.forFile_withoutFile_self

end

/-! ### The fragments and their records -/

theorem vectorsBy_eq_ok_iff {embed : Embedder} {fs : List Chunk.Fragment}
    {vectors : List (Array Float32)} :
    vectorsBy embed fs = .ok vectors ↔
      vectors.length = fs.length ∧ (fs ≠ [] → embed (fs.map fragmentText) = .ok vectors) := by
  unfold vectorsBy
  cases fs with
  | nil =>
    cases vectors with
    | nil => simp
    | cons v rest => simp
  | cons f rest =>
    simp only [List.isEmpty_cons, Bool.false_eq_true, if_false, ne_eq, reduceCtorEq,
      not_false_eq_true, forall_const]
    cases embed ((f :: rest).map fragmentText) with
    | error e => simp
    | ok found =>
      simp only [Except.ok.injEq]
      split
      · next hlength =>
        constructor
        · intro h
          cases h
          exact ⟨hlength, rfl⟩
        · rintro ⟨-, rfl⟩
          rfl
      · next hlength =>
        constructor
        · intro h
          cases h
        · rintro ⟨hsame, rfl⟩
          exact absurd hsame hlength

theorem pairsBy_eq_ok_iff {embed : Embedder}
    {found : Except IndexError (List Chunk.Fragment)}
    {pairs : List (Chunk.Fragment × Array Float32)} :
    pairsBy embed found = .ok pairs ↔ ∃ fs vectors, found = .ok fs ∧
      vectorsBy embed fs = .ok vectors ∧ pairs = fs.zip vectors := by
  cases found with
  | error e => simp [pairsBy]
  | ok fs =>
    rw [pairsBy]
    constructor
    · intro h
      cases hvectors : vectorsBy embed fs with
      | error e =>
        rw [hvectors] at h
        cases h
      | ok vectors =>
        rw [hvectors] at h
        cases h
        exact ⟨fs, vectors, rfl, hvectors, rfl⟩
    · rintro ⟨_, vectors, ⟨⟩, hvectors, rfl⟩
      rw [hvectors]

/-- The contents of records do not depend on their identifiers. -/
theorem content_recordsUnder {file : Metadata} {pairs : List (Chunk.Fragment × Array Float32)}
    {ids more : List String} (hids : ids.length = pairs.length) (hmore : more.length = pairs.length) :
    (recordsUnder file pairs ids).map Record.content =
      (recordsUnder file pairs more).map Record.content := by
  induction pairs generalizing ids more with
  | nil => rfl
  | cons p rest ih =>
    cases ids with
    | nil => exact absurd hids.symm (Nat.succ_ne_zero _)
    | cons id ids =>
      cases more with
      | nil => exact absurd hmore.symm (Nat.succ_ne_zero _)
      | cons new more =>
        exact congrArg (_ :: ·) (ih (Nat.succ.inj hids) (Nat.succ.inj hmore))

theorem dense_recordsUnder {file : Metadata} {fs : List Chunk.Fragment}
    {vectors : List (Array Float32)} {ids : List String} (hvectors : vectors.length = fs.length)
    (hids : ids.length = fs.length) :
    (recordsUnder file (fs.zip vectors) ids).map (·.vector.dense) = vectors := by
  induction fs generalizing vectors ids with
  | nil => rw [List.length_eq_zero_iff.1 hvectors]; rfl
  | cons f rest ih =>
    cases vectors with
    | nil => exact absurd hvectors.symm (Nat.succ_ne_zero _)
    | cons v vectors =>
      cases ids with
      | nil => exact absurd hids.symm (Nat.succ_ne_zero _)
      | cons id ids =>
        exact congrArg (v :: ·) (ih (Nat.succ.inj hvectors) (Nat.succ.inj hids))

theorem refusal_recordsUnder_eq_none_iff {m : Memory} {file : Metadata} {fs : List Chunk.Fragment}
    {vectors : List (Array Float32)} {ids : List String} (hvectors : vectors.length = fs.length)
    (hids : ids.length = fs.length) :
    m.refusal (recordsUnder file (fs.zip vectors) ids) = none ↔
      ∀ v ∈ vectors, v.size = m.denseSize := by
  rw [Memory.refusal_eq_none_iff]
  have hdense : (recordsUnder file (fs.zip vectors) ids).map (·.vector.dense) = vectors :=
    dense_recordsUnder hvectors hids
  conv => rhs; rw [← hdense]
  exact (List.forall_mem_map (P := fun v : Array Float32 => v.size = m.denseSize)).symm

theorem swapOutcome_eq_ok_iff {m : Memory} {rs : List Record} {removed : Nat}
    {report : FileReport} :
    swapOutcome m rs removed = .ok report ↔
      m.refusal rs = none ∧ report = { fragments := rs.length, removed } := by
  unfold swapOutcome
  cases m.refusal rs with
  | some e => simp
  | none => simp [eq_comm]

theorem holdsFragment_recordsUnder {file : Metadata} {fs : List Chunk.Fragment}
    {vectors : List (Array Float32)} {ids : List String} {i : Nat} {f : Chunk.Fragment}
    {dense : Array Float32} {r : Record} (hf : fs[i]? = some f)
    (hdense : vectors[i]? = some dense)
    (hr : (recordsUnder file (fs.zip vectors) ids)[i]? = some r) :
    HoldsFragment file f dense r := by
  obtain ⟨p, id, hp, -, rfl⟩ := List.getElem?_zipWith_eq_some.1 hr
  have hpair : p = (f, dense) := by
    rw [List.getElem?_zip_eq_some] at hp
    exact Prod.ext (Option.some.inj (hp.1.symm.trans hf)) (Option.some.inj (hp.2.symm.trans hdense))
  subst hpair
  exact ⟨rfl, rfl, rfl, rfl⟩

namespace World

variable {w : World Memory} {o : Chunk.Options} {name path : String} {embed : Embedder}
  {source : SourceFile} {c : Collection}

/-- The identifiers that are still to be given out differ from each other and from those of all
stored records. -/
structure FreshIds (w : World Memory) : Prop where
  distinct : ∀ i j, w.used ≤ i → w.used ≤ j → w.ids i = w.ids j → i = j
  unknown : ∀ name c, w.state.collections.get? name = some c →
    ∀ r ∈ c, ∀ i, w.used ≤ i → r.id ≠ w.ids i

theorem mem_nextIds {id : String} {count : Nat} :
    id ∈ w.nextIds count ↔ ∃ i, w.used ≤ i ∧ i < w.used + count ∧ w.ids i = id := by
  simp [nextIds, and_assoc]

theorem FreshIds.nodup_nextIds (h : w.FreshIds) (count : Nat) : (w.nextIds count).Nodup := by
  rw [nextIds, List.nodup_iff_pairwise_ne, List.pairwise_map]
  refine List.Pairwise.imp_of_mem ?_ (List.nodup_iff_pairwise_ne.1 List.nodup_range')
  intro i j hi hj hne hsame
  exact hne (h.distinct i j (List.mem_range'_1.1 hi).1 (List.mem_range'_1.1 hj).1 hsame)

theorem FreshIds.not_mem_nextIds (h : w.FreshIds) (hc : w.state.collections.get? name = some c)
    {r : Record} (hr : r ∈ c) (count : Nat) : r.id ∉ w.nextIds count := by
  intro hmem
  obtain ⟨i, hi, -, hid⟩ := mem_nextIds.1 hmem
  exact h.unknown name c hc r hr i hi hid.symm

theorem FreshIds.fits (hfresh : w.FreshIds) (hc : w.state.collections.get? name = some c)
    {rs : List Record} {count : Nat} (hids : rs.map Record.id = w.nextIds count)
    (hpath : ∀ r ∈ rs, r.payload.metadata.filePath = path) : c.Fits path rs where
  ids_nodup := hids ▸ hfresh.nodup_nextIds count
  ids_new _ hr := hids ▸ hfresh.not_mem_nextIds hc hr count
  filePath := hpath

/-- Identifiers stay fresh while records are stored under those that come next. -/
theorem FreshIds.swapped (hfresh : w.FreshIds) (hc : w.state.collections.get? name = some c)
    {rs : List Record} {count : Nat} (hids : rs.map Record.id = w.nextIds count)
    (hpath : ∀ r ∈ rs, r.payload.metadata.filePath = path) (locks : Locks) :
    FreshIds { w with
      used := w.used + count
      state := w.state.set name (swapped w.state c path rs)
      locks } where
  distinct i j hi hj := hfresh.distinct i j (by dsimp only at hi; omega) (by dsimp only at hj; omega)
  unknown other d hd r hr i hi := by
    dsimp only at hd hi
    by_cases hname : other = name
    · subst hname
      rw [Memory.get?_set_self] at hd
      obtain rfl := Option.some.inj hd
      rcases mem_or_mem_of_mem_swapped (hfresh.fits hc hids hpath) hr with hrs | hrc
      · have hmem : r.id ∈ w.nextIds count := hids ▸ List.mem_map_of_mem hrs
        obtain ⟨j, hj, hlt, hid⟩ := mem_nextIds.1 hmem
        intro hsame
        have := hfresh.distinct j i hj (by omega) (hid.trans hsame)
        omega
      · exact hfresh.unknown other c hc r hrc i (by omega)
    · rw [Memory.get?_set_of_ne hname] at hd
      exact hfresh.unknown other d hd r hr i (by omega)

theorem carryOutPlan_swap (hservices : w.services = .memory embed)
    (hc : w.state.collections.get? name = some c) (file : Metadata)
    (pairs : List (Chunk.Fragment × Array Float32)) :
    carryOutPlan name path (.swap file pairs) w =
      (swapOutcome w.state (recordsUnder file pairs (w.nextIds pairs.length))
          (c.forFile path).length,
        { w with
          used := w.used + pairs.length
          state := w.state.set name
            (swapped w.state c path (recordsUnder file pairs (w.nextIds pairs.length))) }) :=
  attempt_exchange (w := { w with used := w.used + pairs.length }) hservices hc _

/-- Bringing a file up to date is its replacement between taking a lock and giving it back. -/
theorem finish_reconcileFile {σ : Type} (w : World σ) (o : Chunk.Options) (name path : String) :
    ∃ held : Locks, ∃ left : Locks → Locks, finish (reconcileFile o name path) w =
      ((attempt (replace o name path) { w with locks := held }).1,
        { (attempt (replace o name path) { w with locks := held }).2 with
          locks := left (attempt (replace o name path) { w with locks := held }).2.locks }) := by
  refine ⟨(w.locks.lockFor (lockKey name path)).2.acquire (w.locks.lockFor (lockKey name path)).1,
    fun l => (l.release (w.locks.lockFor (lockKey name path)).1).forget
      (w.locks.lockFor (lockKey name path)).1, ?_⟩
  simp only [reconcileFile, finish_bind]
  rfl

theorem finish_reconcileFile_keep (hservices : w.services = .memory embed)
    {outcome : Except IndexError FileReport}
    (hplan : plan o name path (w.state.contains name) (readSource w.files path) embed =
      .keep outcome) :
    ∃ locks, finish (reconcileFile o name path) w = (outcome, { w with locks }) := by
  obtain ⟨held, left, hfinish⟩ := w.finish_reconcileFile o name path
  have hreplace : attempt (replace o name path) { w with locks := held } = _ :=
    attempt_replace hservices
  rw [hplan, carryOutPlan] at hreplace
  rw [hfinish, hreplace]
  exact ⟨_, rfl⟩

theorem finish_reconcileFile_swap (hservices : w.services = .memory embed)
    (hc : w.state.collections.get? name = some c) {file : Metadata}
    {pairs : List (Chunk.Fragment × Array Float32)}
    (hplan : plan o name path (w.state.contains name) (readSource w.files path) embed =
      .swap file pairs) :
    ∃ locks, finish (reconcileFile o name path) w =
      (swapOutcome w.state (recordsUnder file pairs (w.nextIds pairs.length))
          (c.forFile path).length,
        { w with
          used := w.used + pairs.length
          state := w.state.set name
            (swapped w.state c path (recordsUnder file pairs (w.nextIds pairs.length)))
          locks }) := by
  obtain ⟨held, left, hfinish⟩ := w.finish_reconcileFile o name path
  have hreplace : attempt (replace o name path) { w with locks := held } = _ :=
    attempt_replace hservices
  rw [hplan, carryOutPlan_swap (w := { w with locks := held }) hservices hc] at hreplace
  rw [hfinish, hreplace]
  exact ⟨_, rfl⟩

section

variable (hservices : w.services = .memory embed)
  (hc : w.state.collections.get? name = some c) (hread : readSource w.files path = .ok source)

include hc hread in
theorem plan_of_read (o : Chunk.Options) (embed : Embedder) (htext : source.text ≠ "") :
    plan o name path (w.state.contains name) (readSource w.files path) embed =
      .renewing embed (fileMetadata path source) (fragmentsOf o source.text) := by
  rw [Memory.contains_eq_true_iff.2 ⟨c, hc⟩, hread, plan_of_text o name path embed htext]

include hservices hc hread

/-- The records of the fragments that were found, under the identifiers that come next. -/
theorem finish_reconcileFile_of_found (htext : source.text ≠ "") {fs : List Chunk.Fragment}
    {vectors : List (Array Float32)} (hfs : fragmentsOf o source.text = .ok fs)
    (hvectors : vectorsBy embed fs = .ok vectors) :
    ∃ locks, finish (reconcileFile o name path) w =
      (swapOutcome w.state
          (recordsUnder (fileMetadata path source) (fs.zip vectors) (w.nextIds fs.length))
          (c.forFile path).length,
        { w with
          used := w.used + fs.length
          state := w.state.set name (swapped w.state c path
            (recordsUnder (fileMetadata path source) (fs.zip vectors) (w.nextIds fs.length)))
          locks }) := by
  have hplan := plan_of_read hc hread o embed htext
  rw [Plan.renewing, pairsBy_eq_ok_iff.2 ⟨fs, vectors, hfs, hvectors, rfl⟩] at hplan
  have hlength : (fs.zip vectors).length = fs.length := by
    rw [List.length_zip, (vectorsBy_eq_ok_iff.1 hvectors).1, Nat.min_self]
  have hfinish := finish_reconcileFile_swap hservices hc hplan
  rwa [hlength] at hfinish

/-- A file with text is brought up to date if the text follows the grammar, there is a vector for
each fragment, and the vectors have the size of the store's. -/
theorem reconcileFile_ok_iff (htext : source.text ≠ "") {report : FileReport} :
    (finish (reconcileFile o name path) w).1 = .ok report ↔
      ∃ fs vectors, fragmentsOf o source.text = .ok fs ∧ vectorsBy embed fs = .ok vectors ∧
        (∀ v ∈ vectors, v.size = w.state.denseSize) ∧
        report = { fragments := fs.length, removed := (c.forFile path).length } := by
  constructor
  · intro hok
    cases hpairs : pairsBy embed (fragmentsOf o source.text) with
    | error e =>
      have hplan := plan_of_read hc hread o embed htext
      rw [Plan.renewing, hpairs] at hplan
      obtain ⟨locks, hfinish⟩ := finish_reconcileFile_keep hservices hplan
      rw [hfinish] at hok
      cases hok
    | ok pairs =>
      obtain ⟨fs, vectors, hfs, hvectors, -⟩ := pairsBy_eq_ok_iff.1 hpairs
      obtain ⟨locks, hfinish⟩ :=
        finish_reconcileFile_of_found hservices hc hread htext hfs hvectors
      rw [hfinish] at hok
      have hlength := (vectorsBy_eq_ok_iff.1 hvectors).1
      obtain ⟨htaken, hreport⟩ := swapOutcome_eq_ok_iff.1 hok
      refine ⟨fs, vectors, hfs, hvectors, ?_, ?_⟩
      · exact (refusal_recordsUnder_eq_none_iff hlength (length_nextIds w _)).1 htaken
      · rw [hreport, length_recordsUnder] <;> simp [hlength]
  · rintro ⟨fs, vectors, hfs, hvectors, hsizes, rfl⟩
    obtain ⟨locks, hfinish⟩ :=
      finish_reconcileFile_of_found hservices hc hread htext hfs hvectors
    have hlength := (vectorsBy_eq_ok_iff.1 hvectors).1
    rw [hfinish]
    refine swapOutcome_eq_ok_iff.2 ⟨?_, ?_⟩
    · exact (refusal_recordsUnder_eq_none_iff hlength (length_nextIds w _)).2 hsizes
    · rw [length_recordsUnder] <;> simp [hlength]

/-- The records of fragments with their vectors take the place of those of the file; the world goes
on with the same files and with fresh identifiers. -/
theorem finish_reconcileFile_exchanged (hfresh : w.FreshIds) (htext : source.text ≠ "")
    {fs : List Chunk.Fragment} {vectors : List (Array Float32)}
    (hfs : fragmentsOf o source.text = .ok fs) (hvectors : vectorsBy embed fs = .ok vectors)
    (hsizes : ∀ v ∈ vectors, v.size = w.state.denseSize) :
    ∃ rs after, rs =
        recordsUnder (fileMetadata path source) (fs.zip vectors) (w.nextIds fs.length) ∧
      finish (reconcileFile o name path) w =
        (.ok { fragments := fs.length, removed := (w.state.fileRecords name path).length }, after) ∧
      Exchanged w.state after.state name path rs ∧ after.FreshIds ∧
      after.services = w.services ∧ after.files = w.files := by
  obtain ⟨locks, hfinish⟩ := finish_reconcileFile_of_found hservices hc hread htext hfs hvectors
  have hlength := (vectorsBy_eq_ok_iff.1 hvectors).1
  have hpairs : (fs.zip vectors).length = fs.length := by
    rw [List.length_zip, hlength, Nat.min_self]
  have hids : (recordsUnder (fileMetadata path source) (fs.zip vectors)
      (w.nextIds fs.length)).map Record.id = w.nextIds fs.length :=
    recordsUnder_ids (by rw [length_nextIds, hpairs])
  have htaken : w.state.refusal (recordsUnder (fileMetadata path source) (fs.zip vectors)
      (w.nextIds fs.length)) = none :=
    (refusal_recordsUnder_eq_none_iff hlength (length_nextIds w _)).2 hsizes
  have hpath : ∀ r ∈ recordsUnder (fileMetadata path source) (fs.zip vectors)
      (w.nextIds fs.length), r.payload.metadata.filePath = path :=
    fun _ => filePath_of_mem_recordsUnder
  refine ⟨_, _, rfl, ?_, exchanged_set_swapped hc htaken (hfresh.fits hc hids hpath),
    hfresh.swapped hc hids hpath locks, rfl, rfl⟩
  rw [hfinish, swapOutcome, htaken, Memory.fileRecords_eq hc,
    length_recordsUnder (by rw [length_nextIds, hpairs]), hpairs]

/-- Bringing a file up to date leaves the store alone when the file is empty.  Otherwise it succeeds
if the text follows the grammar, there is a vector for each fragment, and the vectors have the size
of the store's.  The file then has a record for each fragment and no other, and nothing else was
changed; a blank file has none.  Doing it again for the same file succeeds too, and exchanges the
records for ones of the same contents. -/
theorem reconcileFile_exchanges_records (hfresh : w.FreshIds)
    {outcome : Except IndexError FileReport} {after : World Memory}
    (hrun : finish (reconcileFile o name path) w = (outcome, after)) :
    (source.text = "" → outcome = .ok { skippedEmpty := true } ∧ after.state = w.state) ∧
    (source.text ≠ "" → ∀ report, outcome = .ok report ↔
      ∃ fs vectors, fragmentsOf o source.text = .ok fs ∧ vectorsBy embed fs = .ok vectors ∧
        (∀ v ∈ vectors, v.size = w.state.denseSize) ∧
        report = { fragments := fs.length, removed := (w.state.fileRecords name path).length }) ∧
    (source.text ≠ "" → ∀ report, outcome = .ok report →
      ∃ (fs : List Chunk.Fragment) (vectors : List (Array Float32)) (rs : List Record),
      fragmentsOf o source.text = .ok fs ∧
      vectors.length = fs.length ∧ (fs ≠ [] → embed (fs.map fragmentText) = .ok vectors) ∧
      rs.length = fs.length ∧
      (∀ (i : Nat) f dense r, fs[i]? = some f → vectors[i]? = some dense → rs[i]? = some r →
        HoldsFragment (fileMetadata path source) f dense r) ∧
      Exchanged w.state after.state name path rs ∧
      report = { fragments := fs.length, removed := (w.state.fileRecords name path).length } ∧
      (Text.isAllBlank source.text.toList = true → after.state.fileRecords name path = []) ∧
      ∃ again last, finish (reconcileFile o name path) after =
          (.ok { fragments := report.fragments, removed := report.fragments }, last) ∧
        Exchanged after.state last.state name path again ∧
        ((last.state.fileRecords name path).map Record.content).Perm
          ((after.state.fileRecords name path).map Record.content)) := by
  have hok : source.text ≠ "" → ∀ report, outcome = .ok report ↔
      ∃ fs vectors, fragmentsOf o source.text = .ok fs ∧ vectorsBy embed fs = .ok vectors ∧
        (∀ v ∈ vectors, v.size = w.state.denseSize) ∧
        report =
          { fragments := fs.length, removed := (w.state.fileRecords name path).length } := by
    intro htext report
    have hiff : (finish (reconcileFile o name path) w).1 = .ok report ↔ _ :=
      reconcileFile_ok_iff hservices hc hread htext
    rwa [hrun, ← Memory.fileRecords_eq hc] at hiff
  refine ⟨?_, hok, ?_⟩
  · intro htext
    have hplan : plan o name path (w.state.contains name) (readSource w.files path) embed =
        .keep (.ok { skippedEmpty := true }) := by
      unfold plan
      rw [Memory.contains_eq_true_iff.2 ⟨c, hc⟩, hread]
      simp only [htext, Bool.not_true, Bool.false_eq_true, if_false]
      rfl
    obtain ⟨locks, hfinish⟩ := finish_reconcileFile_keep hservices hplan
    obtain ⟨rfl, rfl⟩ := Prod.mk.inj (hrun.symm.trans hfinish)
    exact ⟨rfl, rfl⟩
  · intro htext report hreport
    obtain ⟨fs, vectors, hfs, hvectors, hsizes, hsame⟩ := (hok htext report).1 hreport
    obtain ⟨rs, _, hrs, hfirst, hexchanged, hnext, hkept, hfiles⟩ :=
      finish_reconcileFile_exchanged hservices hc hread hfresh htext hfs hvectors hsizes
    obtain ⟨-, rfl⟩ := Prod.mk.inj (hrun.symm.trans hfirst)
    have hlength := (vectorsBy_eq_ok_iff.1 hvectors).1
    have hpairs : (fs.zip vectors).length = fs.length := by
      rw [List.length_zip, hlength, Nat.min_self]
    have hcount : rs.length = fs.length := by
      rw [hrs, length_recordsUnder (by rw [length_nextIds, hpairs]), hpairs]
    -- the second run finds the collection that the first one left, and as many vectors
    obtain ⟨d, hd, -⟩ := hexchanged.kept c hc
    obtain ⟨again, last, hagain, hsecond, hexchanged', -⟩ :=
      finish_reconcileFile_exchanged (hkept.trans hservices) hd (by rw [hfiles, hread]) hnext
        htext hfs hvectors (hexchanged.denseSize ▸ hsizes)
    have hcontent : again.map Record.content = rs.map Record.content := by
      rw [hagain, hrs]
      exact content_recordsUnder (by rw [length_nextIds, hpairs]) (by rw [length_nextIds, hpairs])
    refine ⟨fs, vectors, rs, hfs, hlength, (vectorsBy_eq_ok_iff.1 hvectors).2, hcount, ?_,
      hexchanged, hsame, ?_, again, last, ?_, hexchanged', ?_⟩
    · intro i f dense r hf hdense hr
      exact holdsFragment_recordsUnder hf hdense (hrs ▸ hr)
    · intro hblank
      have hnone : fs = [] := fragmentsOf_blank hblank hfs
      rw [hnone, List.length_nil, List.length_eq_zero_iff] at hcount
      exact List.perm_nil.1 (hcount ▸ hexchanged.records)
    · rw [hsecond, hexchanged.records.length_eq, hcount, hsame]
    · exact ((hexchanged'.records.map _).trans (hcontent ▸ List.Perm.refl _)).trans
        (hexchanged.records.map _).symm

end

/-- An embedder that knows no dimension. -/
def emptyVectors : Embedder := fun texts => .ok (texts.map fun _ => #[])

/-- A store with a record of a file that was overwritten with a byte order mark, and with one of a file
that is gone. -/
def overwrittenFile : World Memory where
  services := .memory emptyVectors
  state := (Memory.empty 0).set "code"
    ((Collection.empty.insert ⟨"1", ⟨#[], .empty⟩, "old", ⟨"a.js", "a.js", "js", 3, 0, 1, 1⟩⟩).insert
      ⟨"2", ⟨#[], .empty⟩, "gone", ⟨"b.js", "b.js", "js", 4, 0, 1, 1⟩⟩)
  files := .directory [("a.js", .file "\uFEFF".toUTF8 0)]
  ids n := String.ofList (List.replicate n 'x')

theorem readSource_overwrittenFile :
    readSource overwrittenFile.files "a.js" = .ok ⟨"\uFEFF", 3, 0⟩ := by decide +kernel

theorem freshIds_overwrittenFile : overwrittenFile.FreshIds := by
  refine ⟨fun i j _ _ hsame => ?_, fun name c hc r hr i _ => ?_⟩
  · simpa [overwrittenFile] using congrArg String.length hsame
  · have hid : r.id = "1" ∨ r.id = "2" := by
      by_cases hname : name = "code"
      · rw [hname, overwrittenFile, Memory.get?_set_self] at hc
        obtain rfl := Option.some.inj hc
        rcases Collection.mem_insert.1 hr with rfl | ⟨hr, -⟩
        · exact .inr rfl
        · rcases Collection.mem_insert.1 hr with rfl | ⟨hr, -⟩
          · exact .inl rfl
          · exact absurd hr Collection.not_mem_empty
      · rw [overwrittenFile, Memory.get?_set_of_ne hname] at hc
        cases hc
    have hdigit : '1' ∉ (overwrittenFile.ids i).toList ∧ '2' ∉ (overwrittenFile.ids i).toList := by
      simp [overwrittenFile]
    intro hsame
    rcases hid with hid | hid
    · exact hdigit.1 (hsame ▸ hid ▸ by decide)
    · exact hdigit.2 (hsame ▸ hid ▸ by decide)

/-- The record of the file gives way to one that holds the mark; done again, this one gives way. -/
theorem reconcileFile_exchanges_records_overwrittenFile :
    ∃ after last r again,
      finish (reconcileFile {} "code" "a.js") overwrittenFile =
        (.ok { fragments := 1, removed := 1 }, after) ∧
      Exchanged overwrittenFile.state after.state "code" "a.js" [r] ∧
      r.payload.code = "\uFEFF" ∧ r.vector.dense = #[] ∧
      finish (reconcileFile {} "code" "a.js") after =
        (.ok { fragments := 1, removed := 1 }, last) ∧
      Exchanged after.state last.state "code" "a.js" again := by
  have hvectors : vectorsBy emptyVectors [⟨0, ['\uFEFF'], 1, 1, .code, "program"⟩] = .ok [#[]] :=
    rfl
  have hone : (overwrittenFile.state.fileRecords "code" "a.js").length = 1 := by decide +kernel
  obtain ⟨outcome, after, hrun⟩ : ∃ outcome after,
      finish (reconcileFile {} "code" "a.js") overwrittenFile = (outcome, after) :=
    ⟨_, _, (Prod.eta _).symm⟩
  obtain ⟨-, hok, hrecords⟩ := reconcileFile_exchanges_records rfl Memory.get?_set_self
    readSource_overwrittenFile freshIds_overwrittenFile hrun
  have houtcome : outcome = .ok { fragments := 1, removed := 1 } :=
    (hok (by decide) _).2 ⟨_, _, fragmentsOf_mark, hvectors, by decide, by rw [hone]; rfl⟩
  obtain ⟨fs, vectors, rs, hfs, hcount, hembed, hlength, hholds, hexchanged, -, -, again, last, hagain,
    hexchanged', -⟩ := hrecords (by decide) _ houtcome
  obtain rfl := Except.ok.inj (fragmentsOf_mark.symm.trans hfs)
  obtain rfl := Except.ok.inj (hembed (List.cons_ne_nil _ _))
  obtain ⟨r, rfl⟩ := List.length_eq_one_iff.1 hlength
  have hr := hholds 0 _ _ r rfl rfl rfl
  exact ⟨after, last, r, again, by rw [hrun, houtcome], hexchanged, hr.code, hr.dense, hagain,
    hexchanged'⟩

end World

end Index

end CodeIndex
