import CodeIndex.Proofs.Index.Failure

/-! Batches that the store refuses.  The old records of a file are deleted before the new batch is
written, and steps that were completed are not undone: when the store refuses the batch, the file is
left without records, and everything else is as it was. -/

namespace CodeIndex.Index

open Store (Collection Memory Metadata Record StoreError)

/-- Before the store is touched nothing fails in it. -/
theorem plan_ne_keep_store {o : Chunk.Options} {name path : String} {present : Bool}
    {found : Except Files.IoError SourceFile} {embed : Embedder} {reason : StoreError} :
    plan o name path present found embed ≠ .keep (.error (.store reason)) := by
  intro h
  rcases plan_eq_keep_error h with he | ⟨_, he⟩ | ⟨_, he⟩ | ⟨_, -, hfound⟩
  · cases he
  · cases he
  · cases he
  · exact fragmentsOf_ne_store hfound

/-- A refused batch has a vector of another size than the store's. -/
theorem exists_size_ne_of_refusal {m : Memory} {file : Metadata} {fs : List Chunk.Fragment}
    {vectors : List (Array Float32)} {ids : List String} {reason : StoreError}
    (hvectors : vectors.length = fs.length) (hids : ids.length = fs.length)
    (h : m.refusal (recordsUnder file (fs.zip vectors) ids) = some reason) :
    ∃ v ∈ vectors, v.size ≠ m.denseSize ∧
      ∃ id, reason = .backend (.wrongSize id m.denseSize v.size) := by
  rw [Memory.refusal, Option.map_eq_some_iff] at h
  obtain ⟨r, hr, hreason⟩ := h
  refine ⟨r.vector.dense, ?_, by simpa using List.find?_some hr, r.id, hreason.symm⟩
  have hdense : (recordsUnder file (fs.zip vectors) ids).map (·.vector.dense) = vectors :=
    dense_recordsUnder hvectors hids
  rw [← hdense]
  exact List.mem_map_of_mem (List.mem_of_find?_eq_some hr)

theorem exchanged_set_withoutFile {m : Memory} {c : Collection} {name path : String}
    (hc : m.collections.get? name = some c) :
    Exchanged m (m.set name (c.withoutFile path)) name path [] where
  denseSize := rfl
  others other hother := Memory.get?_set_of_ne hother
  kept d hd := by
    obtain rfl : c = d := Option.some.inj (hc.symm.trans hd)
    refine ⟨_, Memory.get?_set_self, Collection.indexes_withoutFile, fun r hr => ?_⟩
    rw [Collection.mem_withoutFile]
    exact and_iff_left hr
  records := by
    rw [Memory.fileRecords_set_self, Collection.forFile_withoutFile_self]

namespace World

variable {w : World Memory} {o : Chunk.Options} {name path : String} {embed : Embedder}
  {reason : StoreError}

/-- When the store refuses the new records of a file, because one of them has a vector of another
size than the store's, the file is left without records: the old ones are gone, and of the new ones
none is there.  All other records and the indexes are as they were. -/
theorem reconcileFile_refused_leaves_no_records (hservices : w.services = .memory embed)
    (h : (finish (reconcileFile o name path) w).1 = .error (.store reason)) :
    (∃ source fs vectors, readSource w.files path = .ok source ∧
      fragmentsOf o source.text = .ok fs ∧ embed (fs.map fragmentText) = .ok vectors ∧
      vectors.length = fs.length ∧
      ∃ v ∈ vectors, v.size ≠ w.state.denseSize ∧
        ∃ id, reason = .backend (.wrongSize id w.state.denseSize v.size)) ∧
    (finish (reconcileFile o name path) w).2.state.fileRecords name path = [] ∧
    Exchanged w.state (finish (reconcileFile o name path) w).2.state name path [] := by
  cases hplan : plan o name path (w.state.contains name) (readSource w.files path) embed with
  | keep outcome =>
    obtain ⟨locks, hfinish⟩ := finish_reconcileFile_keep hservices hplan
    rw [hfinish] at h
    exact absurd (hplan.trans (congrArg Plan.keep h)) plan_ne_keep_store
  | swap file pairs =>
    obtain ⟨hpresent, source, hread, -, -, hpairs⟩ := plan_eq_swap_iff.1 hplan
    obtain ⟨c, hc⟩ := Memory.contains_eq_true_iff.1 hpresent
    obtain ⟨fs, vectors, hfs, hvectors, rfl⟩ := pairsBy_eq_ok_iff.1 hpairs
    obtain ⟨hlength, hembed⟩ := vectorsBy_eq_ok_iff.1 hvectors
    obtain ⟨locks, hfinish⟩ := finish_reconcileFile_swap hservices hc hplan
    have hzip : (fs.zip vectors).length = fs.length := by
      rw [List.length_zip, hlength, Nat.min_self]
    rw [hfinish, swapOutcome] at h
    rw [hfinish, swapped]
    cases hrefusal : w.state.refusal
        (recordsUnder file (fs.zip vectors) (w.nextIds (fs.zip vectors).length)) with
    | none =>
      rw [hrefusal] at h
      cases h
    | some e =>
      rw [hrefusal] at h
      cases h
      obtain ⟨v, hv, hsize⟩ := exists_size_ne_of_refusal hlength (by rw [length_nextIds, hzip])
        hrefusal
      have hne : fs ≠ [] := by
        rintro rfl
        rw [List.length_eq_zero_iff.1 hlength] at hv
        exact List.not_mem_nil hv
      have hexchanged : Exchanged w.state (w.state.set name (c.withoutFile path)) name path [] :=
        exchanged_set_withoutFile hc
      exact ⟨⟨source, fs, vectors, hread, hfs, hembed hne, hlength, v, hv, hsize⟩,
        List.perm_nil.1 hexchanged.records, hexchanged⟩

/-- A store with a record of a file, and an embedder whose vectors are larger than the store's. -/
def largeVectors : World Memory where
  services := .memory fun texts => .ok (texts.map fun _ => #[0])
  state := (Memory.empty 0).set "code"
    (Collection.empty.insert
      ⟨"old", ⟨#[], .empty⟩, "text", ⟨"a.js", "a.js", "js", 4, 0, 1, 1⟩⟩)
  files := .directory [("a.js", .file "\uFEFF".toUTF8 0)]
  ids n := toString n

theorem finish_reconcileFile_largeVectors :
    (finish (reconcileFile {} "code" "a.js") largeVectors).1 =
        .error (.store (.backend (.wrongSize "0" 0 1))) ∧
      (finish (reconcileFile {} "code" "a.js") largeVectors).2.state.fileRecords "code" "a.js" =
        [] := by
  have hread : readSource largeVectors.files "a.js" = .ok ⟨"\uFEFF", 3, 0⟩ := by decide +kernel
  have hvectors : vectorsBy (fun texts => .ok (texts.map fun _ => #[0]))
      [⟨0, ['\uFEFF'], 1, 1, .code, "program"⟩] = .ok [#[0]] := rfl
  obtain ⟨locks, hfinish⟩ := finish_reconcileFile_of_found (w := largeVectors) rfl
    Memory.get?_set_self hread (by decide) fragmentsOf_mark hvectors
  rw [hfinish]
  exact ⟨rfl, rfl⟩

/-- The store can refuse a vector for each fragment; the record that was there before is gone. -/
theorem reconcileFile_refused_drops_records :
    (∀ texts, ∃ vectors, (largeVectors.services.embed largeVectors.state texts).1 = .ok vectors ∧
      vectors.length = texts.length) ∧
    (finish (reconcileFile {} "code" "a.js") largeVectors).1 =
      .error (.store (.backend (.wrongSize "0" 0 1))) ∧
    (largeVectors.state.fileRecords "code" "a.js").map Record.id = ["old"] ∧
    (finish (reconcileFile {} "code" "a.js") largeVectors).2.state.fileRecords "code" "a.js" = [] :=
  ⟨fun _ => ⟨_, rfl, List.length_map _⟩, finish_reconcileFile_largeVectors.1, rfl,
    finish_reconcileFile_largeVectors.2⟩

theorem reconcileFile_refused_leaves_no_records_largeVectors :
    (finish (reconcileFile {} "code" "a.js") largeVectors).1 =
      .error (.store (.backend (.wrongSize "0" 0 1))) ∧
    Exchanged largeVectors.state (finish (reconcileFile {} "code" "a.js") largeVectors).2.state
      "code" "a.js" [] :=
  ⟨finish_reconcileFile_largeVectors.1,
    (reconcileFile_refused_leaves_no_records rfl finish_reconcileFile_largeVectors.1).2.2⟩

end World

end CodeIndex.Index
