import CodeIndex.Proofs.Store.Memory
import CodeIndex.Proofs.Text.Bytes

/-! The search page by page.  With pages of any size it comes to an end, and it finds what one pass
through all records finds, in the order of the identifiers' bytes. -/

namespace CodeIndex.Store

namespace Collection

variable {c : Collection} {f : Filter} {size : Nat} {start : Option String}
  {pages others : List (List String)}

/-- What a page says decides the next one. -/
theorem Paged.unique (h : c.Paged f size start pages) (hother : c.Paged f size start others) :
    others = pages := by
  induction h generalizing others with
  | last hpage =>
    cases hother with
    | last hpage' =>
      cases hpage.symm.trans hpage'
      rfl
    | next hpage' _ => cases hpage.symm.trans hpage'
  | next hpage _ ih =>
    cases hother with
    | last hpage' => cases hpage.symm.trans hpage'
    | next hpage' hrest =>
      cases hpage.symm.trans hpage'
      rw [ih hrest]

theorem mem_ids_filtered_iff {id : String} :
    id ∈ (c.filtered f).map Record.id ↔
      ∃ r ∈ c, f.matches_ r.payload.metadata = true ∧ r.id = id := by
  simp only [filtered, List.mem_map, List.mem_filter, mem_def, and_assoc]

theorem ids_ascending_utf8 (c : Collection) (f : Filter) :
    ((c.filtered f).map Record.id).Pairwise fun a b => utf8 a < utf8 b :=
  (c.ids_ascending f).imp utf8_lt_iff.2

/-- A search with pages of any size comes to an end after one more page than those that it fills, and
in one way only.  It finds the identifiers of exactly the records that the filter lets pass, each
once and in the order of their bytes, which is what one pass through all records finds; and so does
the search of a store. -/
theorem paged_search_finds_filtered (c : Collection) {f : Filter} (hf : f.conditions ≠ [])
    {size : Nat} (hsize : 0 < size) :
    ∃ pages, c.Paged f size none pages ∧
      (∀ others, c.Paged f size none others → others = pages) ∧
      pages.length ≤ (c.filtered f).length / size + 1 ∧
      (∀ count, pages.length ≤ count → c.pages f size count none = pages.flatten) ∧
      pages.flatten = (c.filtered f).map Record.id ∧
      (∀ id, id ∈ pages.flatten ↔
        ∃ r ∈ c, f.matches_ r.payload.metadata = true ∧ r.id = id) ∧
      pages.flatten.Pairwise (fun a b => utf8 a < utf8 b) ∧
      ∀ (m : Memory) (name : String), m.collections.get? name = some c →
        m.perform (.find name f) = (.ok pages.flatten, m) := by
  obtain ⟨pages, hpages, hbound⟩ := c.exists_paged f hsize none
  have hflatten : pages.flatten = (c.filtered f).map Record.id := by
    rw [hpages.flatten_eq, idsFrom_none]
  rw [idsFrom_none, List.length_map] at hbound
  refine ⟨pages, hpages, fun _ => hpages.unique, hbound, fun _ => hpages.pages_eq, hflatten, ?_, ?_,
    fun m name hc => ?_⟩
  · intro id
    rw [hflatten, mem_ids_filtered_iff]
  · rw [hflatten]
    exact c.ids_ascending_utf8 f
  · rw [hflatten]
    exact Memory.perform_find hc f _ (Filter.requiredConditions_eq hf)

/-- Four records of one file and one of another between them; the last identifier has two bytes. -/
def scattered : Collection :=
  empty.insertAll ((["a", "b", "d", "é"].map fun id =>
      ⟨id, ⟨#[], .empty⟩, "x", ⟨"a.js", "a.js", "js", 1, 0, 1, 1⟩⟩) ++
    [⟨"c", ⟨#[], .empty⟩, "y", ⟨"b.js", "b.js", "js", 1, 0, 1, 1⟩⟩])

/-- Two full pages, and none after them. -/
theorem paged_search_finds_filtered_scattered :
    (Filter.forFile "a.js").conditions ≠ [] ∧ 0 < 2 ∧
      scattered.Paged (.forFile "a.js") 2 none [["a", "b"], ["d", "é"]] ∧
      ((Memory.empty 0).set "code" scattered).perform (.find "code" (.forFile "a.js")) =
        (.ok ["a", "b", "d", "é"], (Memory.empty 0).set "code" scattered) := by
  have hf : (Filter.forFile "a.js").conditions ≠ [] := by decide
  have hsize : 0 < 2 := by decide
  obtain ⟨pages, hpages, honly, -, -, -, -, -, hfind⟩ :=
    paged_search_finds_filtered scattered hf hsize
  have hfirst : scattered.page (.forFile "a.js") 2 none = (["a", "b"], some "d") := by
    decide +kernel
  have hsecond : scattered.page (.forFile "a.js") 2 (some "d") = (["d", "é"], none) := by
    decide +kernel
  have htwo := Paged.next hfirst (.last hsecond)
  refine ⟨hf, hsize, htwo, ?_⟩
  rw [hfind _ _ Memory.get?_set_self, ← honly _ htwo]
  rfl

end Collection

end CodeIndex.Store
