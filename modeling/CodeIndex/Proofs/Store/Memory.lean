import CodeIndex.Proofs.Store.Collection
import CodeIndex.Store.Call

/-! What the calls of the store in memory do to a collection that is there.  A call changes at most
the collection that it names, and a call that fails changes nothing. -/

namespace CodeIndex.Store

namespace Collection

/-- The collection without the records of a file. -/
def withoutFile (c : Collection) (path : String) : Collection :=
  c.eraseAll ((c.forFile path).map Record.id)

variable {c : Collection} {path : String} {r : Record}

@[simp] theorem indexes_withoutFile : (c.withoutFile path).indexes = c.indexes :=
  indexes_eraseAll

theorem mem_withoutFile :
    r ∈ c.withoutFile path ↔ r ∈ c ∧ r.payload.metadata.filePath ≠ path := by
  rw [withoutFile, mem_eraseAll]
  refine and_congr_right fun hr => not_congr ?_
  rw [List.mem_map]
  constructor
  · rintro ⟨s, hs, hid⟩
    obtain ⟨hsc, hpath⟩ := mem_forFile.1 hs
    rwa [← eq_of_id_eq hsc hr hid]
  · exact fun hpath => ⟨r, mem_forFile.2 ⟨hr, hpath⟩, rfl⟩

end Collection

theorem Filter.requiredConditions_eq {f : Filter} (hf : f.conditions ≠ []) :
    f.requiredConditions = .ok f.conditions := by
  unfold Filter.requiredConditions
  split
  · next hnone => exact absurd hnone hf
  · rfl

namespace Memory

variable {m : Memory} {name other : String} {c d : Collection} {ids : List String}
  {rs : List Record}

@[simp] theorem denseSize_set : (m.set name c).denseSize = m.denseSize := rfl

@[simp] theorem get?_set_self : (m.set name c).collections.get? name = some c :=
  Catalog.get?_insert_self

theorem get?_set_of_ne (h : other ≠ name) :
    (m.set name c).collections.get? other = m.collections.get? other :=
  Catalog.get?_insert_of_ne h

@[simp] theorem set_set : (m.set name c).set name d = m.set name d := by
  simp only [set, Catalog.insert_insert]

theorem set_of_get?_eq (h : m.collections.get? name = some c) : m.set name c = m := by
  simp only [set, Catalog.insert_of_get?_eq h]

theorem contains_eq_true_iff :
    m.contains name = true ↔ ∃ c, m.collections.get? name = some c :=
  Catalog.contains_eq_true_iff

theorem collection_eq (h : m.collections.get? name = some c) : m.collection name = .ok c := by
  rw [collection, h]

theorem ext_get? {m n : Memory} (hsize : m.denseSize = n.denseSize)
    (h : ∀ name, m.collections.get? name = n.collections.get? name) : m = n := by
  cases m
  cases n
  cases hsize
  cases Catalog.ext_get? h
  rfl

/-- What the store says of a batch with a vector of another size than its own. -/
def refusal (m : Memory) (rs : List Record) : Option StoreError :=
  (rs.find? (·.vector.dense.size ≠ m.denseSize)).map fun r =>
    .backend (.wrongSize r.id m.denseSize r.vector.dense.size)

@[simp] theorem refusal_set : (m.set name c).refusal rs = m.refusal rs := rfl

section

variable (h : m.collections.get? name = some c)
include h

theorem perform_find (f : Filter) (cs : List Condition) (hf : f.requiredConditions = .ok cs) :
    m.perform (.find name f) = (.ok ((c.filtered f).map Record.id), m) := by
  have hfind : m.find name f = .ok (c.find f) := by
    rw [find, hf, collection_eq h]
    rfl
  rw [perform, hfind, c.find_eq]

theorem perform_find_file (path : String) :
    m.perform (.find name (.forFile path)) = (.ok ((c.forFile path).map Record.id), m) := by
  rw [perform_find h _ [(.filePath, path)] rfl, Collection.filtered_forFile]

/-- Without identifiers the collection stays, so that looking at it makes no difference. -/
theorem perform_deleteIds :
    m.perform (.deleteIds name ids) = (.ok (), m.set name (c.eraseAll ids)) := by
  have hdelete : m.deleteIds name ids = .ok (m.set name (c.eraseAll ids)) := by
    rw [deleteIds, collection_eq h]
    cases ids with
    | nil => exact congrArg Except.ok (set_of_get?_eq h).symm
    | cons id rest => rfl
  rw [perform, hdelete, settle]

theorem perform_upsert :
    m.perform (.upsert name rs) =
      match m.refusal rs with
      | some e => (.error e, m)
      | none => (.ok (), m.set name (c.insertAll rs)) := by
  rw [perform, upsert, collection_eq h, refusal]
  simp only [bind, Except.bind]
  cases rs.find? (·.vector.dense.size ≠ m.denseSize) <;> rfl

end

end Memory

end CodeIndex.Store
