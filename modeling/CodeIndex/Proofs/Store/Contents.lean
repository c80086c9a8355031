import CodeIndex.Proofs.Store.Memory

/-! A store as the records of its files.  From a start on, a store is told by what was stored last for
each file, when only the records of files change: two stores that agree in this are equal. -/

namespace CodeIndex.Store

namespace Collection

variable {c : Collection} {path other : String} {rs : List Record} {ids : List String}

theorem forFile_congr {d : Collection}
    (h : ∀ r : Record, r.payload.metadata.filePath = path → (r ∈ c ↔ r ∈ d)) :
    (c.forFile path).Perm (d.forFile path) := by
  refine (List.perm_ext_iff_of_nodup (nodup_forFile c path) (nodup_forFile d path)).2 fun r => ?_
  rw [mem_forFile, mem_forFile]
  exact and_congr_left fun hpath => h r hpath

/-- Who takes away what has the identifiers of a file's records takes away the file's records. -/
theorem eraseAll_eq_withoutFile (h : ∀ id, id ∈ ids ↔ id ∈ (c.forFile path).map Record.id) :
    c.eraseAll ids = c.withoutFile path := by
  refine ext_mem (fun r => ?_) (by simp)
  rw [withoutFile, mem_eraseAll, mem_eraseAll, h]

theorem forFile_withoutFile_self : (c.withoutFile path).forFile path = [] := by
  refine List.eq_nil_iff_forall_not_mem.2 fun r hr => ?_
  obtain ⟨hmem, hpath⟩ := mem_forFile.1 hr
  exact (mem_withoutFile.1 hmem).2 hpath

theorem forFile_withoutFile_of_ne (h : other ≠ path) :
    ((c.withoutFile path).forFile other).Perm (c.forFile other) := by
  refine forFile_congr fun r hr => ?_
  rw [mem_withoutFile]
  exact ⟨And.left, fun hmem => ⟨hmem, hr ▸ h⟩⟩

/-- The records fit in beside those of a collection, as the records of a file. -/
structure Fits (c : Collection) (path : String) (rs : List Record) : Prop where
  ids_nodup : (rs.map Record.id).Nodup
  ids_new : ∀ r ∈ c, r.id ∉ rs.map Record.id
  filePath : ∀ r ∈ rs, r.payload.metadata.filePath = path

theorem Fits.mem_insertAll (h : c.Fits path rs) {r : Record} :
    r ∈ c.insertAll rs ↔ r ∈ rs ∨ r ∈ c := by
  rw [Collection.mem_insertAll h.ids_nodup]
  exact or_congr_right ⟨And.left, fun hr => ⟨hr, h.ids_new r hr⟩⟩

theorem Fits.nodup (h : c.Fits path rs) : rs.Nodup :=
  List.Pairwise.of_map Record.id (fun _ _ hne hsame => hne (congrArg _ hsame)) h.ids_nodup

theorem Fits.forFile_self (h : c.Fits path rs) (hnone : c.forFile path = []) :
    ((c.insertAll rs).forFile path).Perm rs := by
  refine (List.perm_ext_iff_of_nodup (nodup_forFile _ _) h.nodup).2 fun r => ?_
  rw [mem_forFile, h.mem_insertAll]
  constructor
  · rintro ⟨hr | hr, hpath⟩
    · exact hr
    · have hmem := mem_forFile.2 ⟨hr, hpath⟩
      rw [hnone] at hmem
      exact absurd hmem List.not_mem_nil
  · exact fun hr => ⟨.inl hr, h.filePath r hr⟩

theorem Fits.forFile_of_ne (h : c.Fits path rs) (hother : other ≠ path) :
    ((c.insertAll rs).forFile other).Perm (c.forFile other) := by
  refine forFile_congr fun r hr => ?_
  rw [h.mem_insertAll]
  refine ⟨?_, .inr⟩
  rintro (hrs | hmem)
  · exact absurd (hr.symm.trans (h.filePath r hrs)) hother
  · exact hmem

theorem Fits.withoutFile (h : c.Fits path rs) (gone : String) :
    (c.withoutFile gone).Fits path rs where
  ids_nodup := h.ids_nodup
  ids_new r hr := h.ids_new r (mem_withoutFile.1 hr).1
  filePath := h.filePath

end Collection

/-- The records of a file; none when the collection is missing. -/
def Memory.fileRecords (m : Memory) (name path : String) : List Record :=
  match m.collections.get? name with
  | some c => c.forFile path
  | none => []

/-- What was stored last for the files of collections, if anything was. -/
abbrev Latest := String → String → Option (List Record)

/-- The same, but for the records of one file. -/
def Latest.update (f : Latest) (name path : String) (rs : List Record) : Latest := fun n p =>
  if n = name ∧ p = path then some rs else f n p

namespace Memory

variable {start m n : Memory} {f : Latest} {name other path : String} {c d : Collection}
  {rs : List Record}

theorem fileRecords_eq (h : m.collections.get? name = some c) (path : String) :
    m.fileRecords name path = c.forFile path := by
  rw [fileRecords, h]

theorem fileRecords_set_self : (m.set name c).fileRecords name path = c.forFile path :=
  fileRecords_eq get?_set_self path

theorem fileRecords_set_of_ne (h : other ≠ name) :
    (m.set name c).fileRecords other path = m.fileRecords other path := by
  rw [fileRecords, get?_set_of_ne h, fileRecords]

/-- A store has the collections of the start, and of each file what was stored last for it, or else
what it had at the start. -/
structure Follows (start m : Memory) (f : Latest) : Prop where
  denseSize : m.denseSize = start.denseSize
  indexes : ∀ name, (m.collections.get? name).map Collection.indexes =
    (start.collections.get? name).map Collection.indexes
  records : ∀ name path,
    (m.fileRecords name path).Perm ((f name path).getD (start.fileRecords name path))

namespace Follows

theorem refl (m : Memory) : m.Follows m fun _ _ => none :=
  ⟨rfl, fun _ => rfl, fun _ _ => List.Perm.refl _⟩

/-- What was stored last for each file determines the store. -/
theorem unique (hm : start.Follows m f) (hn : start.Follows n f) : m = n := by
  refine ext_get? (hm.denseSize.trans hn.denseSize.symm) fun name => ?_
  have hindexes := (hm.indexes name).trans (hn.indexes name).symm
  have hrecords := fun path => (hm.records name path).trans (hn.records name path).symm
  cases hc : m.collections.get? name with
  | none =>
    rw [hc, Option.map_none, eq_comm, Option.map_eq_none_iff] at hindexes
    exact hindexes.symm
  | some c =>
    cases hd : n.collections.get? name with
    | none =>
      rw [hc, hd] at hindexes
      cases hindexes
    | some d =>
      rw [hc, hd, Option.map_some, Option.map_some, Option.some.injEq] at hindexes
      refine congrArg some (Collection.ext_mem (fun r => ?_) hindexes)
      have hsame := (hrecords r.payload.metadata.filePath).mem_iff (a := r)
      rw [fileRecords_eq hc, fileRecords_eq hd, Collection.mem_forFile,
        Collection.mem_forFile] at hsame
      simpa using hsame

theorem contains_eq (h : start.Follows m f) (name : String) :
    m.contains name = start.contains name := by
  have hsome := congrArg Option.isSome (h.indexes name)
  rwa [Option.isSome_map, Option.isSome_map] at hsome

/-- The records of one file of a collection are exchanged. -/
theorem set (h : start.Follows m f) (hc : m.collections.get? name = some c)
    (hindexes : d.indexes = c.indexes) (hself : (d.forFile path).Perm rs)
    (hothers : ∀ other, other ≠ path → (d.forFile other).Perm (c.forFile other)) :
    start.Follows (m.set name d) (f.update name path rs) where
  denseSize := h.denseSize
  indexes n := by
    by_cases hname : n = name
    · rw [hname, get?_set_self, ← h.indexes, hc, Option.map_some, Option.map_some, hindexes]
    · rw [get?_set_of_ne hname, h.indexes]
  records n p := by
    by_cases hname : n = name
    · subst hname
      rw [fileRecords_set_self]
      by_cases hpath : p = path
      · simp only [Latest.update, hpath, and_self, if_true, Option.getD_some]
        exact hself
      · simp only [Latest.update, hpath, and_false, if_false]
        exact (hothers p hpath).trans (fileRecords_eq hc p ▸ h.records n p)
    · rw [fileRecords_set_of_ne hname]
      simp only [Latest.update, hname, false_and, if_false]
      exact h.records n p

theorem withoutFile (h : start.Follows m f) (hc : m.collections.get? name = some c)
    (path : String) :
    start.Follows (m.set name (c.withoutFile path)) (f.update name path []) :=
  h.set hc Collection.indexes_withoutFile
    (Collection.forFile_withoutFile_self ▸ List.Perm.refl _)
    fun _ => Collection.forFile_withoutFile_of_ne

theorem insertAll (h : start.Follows m f) (hc : m.collections.get? name = some c)
    (hrs : c.Fits path rs) (hnone : c.forFile path = []) :
    start.Follows (m.set name (c.insertAll rs)) (f.update name path rs) :=
  h.set hc Collection.indexes_insertAll (hrs.forFile_self hnone) fun _ => hrs.forFile_of_ne

end Follows

end Memory

theorem Latest.update_update (f : Latest) (name path : String) (rs ss : List Record) :
    (f.update name path rs).update name path ss = f.update name path ss := by
  funext n p
  simp only [Latest.update]
  split <;> simp_all

end CodeIndex.Store
