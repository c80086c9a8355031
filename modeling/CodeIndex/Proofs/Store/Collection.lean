import CodeIndex.Proofs.Catalog
import CodeIndex.Store.Memory

/-! Collections as sets of records.  A record is in a collection or not, no two records of one have
the same identifier, and every operation is described by the records that are in the collection
after it.  The search page by page finds what one search through all records would find. -/

namespace CodeIndex.Store

namespace Collection

instance : Membership Record Collection := ⟨fun c r => r ∈ c.records.values⟩

variable {c d : Collection} {r s : Record} {rs : List Record} {f : Filter} {path : String}

theorem mem_def : r ∈ c ↔ r ∈ c.records.values := Iff.rfl

theorem mem_iff_entry : r ∈ c ↔ (r.id, r) ∈ c.records.entries := by
  rw [mem_def, Catalog.mem_values]
  constructor
  · rintro ⟨name, h⟩
    have hid : r.id = name := c.keyed _ h
    exact hid ▸ h
  · exact fun h => ⟨_, h⟩

theorem eq_of_id_eq (hr : r ∈ c) (hs : s ∈ c) (h : r.id = s.id) : r = s := by
  have := c.records.ascending.eq_of_name_eq (mem_iff_entry.1 hr) (mem_iff_entry.1 hs) h
  exact congrArg Prod.snd this

theorem nodup_values (c : Collection) : c.records.values.Nodup := by
  refine Catalog.values_nodup_of_injOn fun d hd e he h => ?_
  rw [← c.keyed d hd, ← c.keyed e he, h]

theorem ids_nodup (c : Collection) (p : Record → Bool) :
    ((c.records.values.filter p).map Record.id).Nodup := by
  rw [List.nodup_iff_pairwise_ne, List.pairwise_map]
  refine List.Pairwise.imp_of_mem ?_ (c.nodup_values.filter p)
  intro a b ha hb hne h
  exact hne (eq_of_id_eq (List.mem_filter.1 ha).1 (List.mem_filter.1 hb).1 h)

theorem ext_mem (hmem : ∀ r, r ∈ c ↔ r ∈ d) (hindexes : c.indexes = d.indexes) : c = d := by
  have hrecords : c.records = d.records := by
    refine Catalog.ext_mem fun e => ?_
    constructor
    · intro he
      have hid := c.keyed e he
      have : e.2 ∈ d := (hmem e.2).1 (Catalog.mem_values.2 ⟨e.1, he⟩)
      simpa [hid] using mem_iff_entry.1 this
    · intro he
      have hid := d.keyed e he
      have : e.2 ∈ c := (hmem e.2).2 (Catalog.mem_values.2 ⟨e.1, he⟩)
      simpa [hid] using mem_iff_entry.1 this
  cases c
  cases d
  cases hrecords
  cases hindexes
  rfl

theorem not_mem_empty : r ∉ empty := List.not_mem_nil

theorem mem_insert : r ∈ c.insert s ↔ r = s ∨ (r ∈ c ∧ r.id ≠ s.id) := by
  rw [mem_iff_entry, mem_iff_entry, insert, Catalog.mem_entries_insert]
  simp only [Prod.mk.injEq]
  exact or_congr_left ⟨And.right, fun h => ⟨h ▸ rfl, h⟩⟩

theorem mem_erase {id : String} : r ∈ c.erase id ↔ r ∈ c ∧ r.id ≠ id := by
  rw [mem_iff_entry, mem_iff_entry, erase, Catalog.mem_entries_erase]

/-- What is stored last under an identifier stays; with distinct identifiers everything does. -/
theorem mem_insertAll (hrs : (rs.map Record.id).Nodup) :
    r ∈ c.insertAll rs ↔ r ∈ rs ∨ (r ∈ c ∧ r.id ∉ rs.map Record.id) := by
  induction rs generalizing c with
  | nil => simp [insertAll]
  | cons s rest ih =>
    obtain ⟨hs, hrest⟩ := List.nodup_cons.1 hrs
    rw [insertAll, List.foldl_cons, ← insertAll, ih hrest, mem_insert]
    simp only [List.map_cons, List.mem_cons, not_or]
    constructor
    · rintro (h | ⟨rfl | ⟨hr, hne⟩, hout⟩)
      · exact .inl (.inr h)
      · exact .inl (.inl rfl)
      · exact .inr ⟨hr, hne, hout⟩
    · rintro ((rfl | h) | ⟨hr, hne, hout⟩)
      · exact .inr ⟨.inl rfl, hs⟩
      · exact .inl h
      · exact .inr ⟨.inr ⟨hr, hne⟩, hout⟩

theorem mem_eraseAll {ids : List String} : r ∈ c.eraseAll ids ↔ r ∈ c ∧ r.id ∉ ids := by
  induction ids generalizing c with
  | nil => simp [eraseAll]
  | cons id rest ih =>
    rw [eraseAll, List.foldl_cons, ← eraseAll, ih, mem_erase, List.mem_cons, not_or, and_assoc]

@[simp] theorem indexes_insertAll : (c.insertAll rs).indexes = c.indexes := by
  induction rs generalizing c with
  | nil => rfl
  | cons s rest ih => exact ih (c := c.insert s)

@[simp] theorem indexes_eraseAll {ids : List String} :
    (c.eraseAll ids).indexes = c.indexes := by
  induction ids generalizing c with
  | nil => rfl
  | cons id rest ih => exact ih (c := c.erase id)

theorem mem_forFile : r ∈ c.forFile path ↔ r ∈ c ∧ r.payload.metadata.filePath = path := by
  rw [forFile, List.mem_filter, beq_iff_eq, mem_def]

theorem nodup_forFile (c : Collection) (path : String) : (c.forFile path).Nodup :=
  c.nodup_values.filter _

theorem filtered_forFile (c : Collection) (path : String) :
    c.filtered (.forFile path) = c.forFile path := by
  simp only [filtered, forFile, Filter.forFile, Filter.matches_, Filter.agrees, Option.all_some,
    Option.all_none, Bool.and_true, Bool.beq_comm (b := path)]

/-! ### Pages -/

/-- In an ascending list, what is not below a member is that member and what follows it. -/
theorem filter_ge_of_split {before after : List String} {id : String}
    (h : (before ++ id :: after).Pairwise (· < ·)) :
    (before ++ id :: after).filter (fun x => (some id).all (· ≤ x)) = id :: after := by
  obtain ⟨-, hafter, hbelow⟩ := List.pairwise_append.1 h
  have hfront : before.filter (fun x => (some id).all (· ≤ x)) = [] := by
    rw [List.filter_eq_nil_iff]
    intro x hx hle
    have hlt : x < id := hbelow x hx id List.mem_cons_self
    simp only [Option.all_some, decide_eq_true_eq, ← String.not_lt] at hle
    exact hle hlt
  have hback : (id :: after).filter (fun x => (some id).all (· ≤ x)) = id :: after := by
    rw [List.filter_eq_self]
    intro x hx
    simp only [Option.all_some, decide_eq_true_eq, ← String.not_lt]
    rcases List.mem_cons.1 hx with rfl | hx
    · exact String.lt_irrefl _
    · have hlt : id < x := (List.pairwise_cons.1 hafter).1 x hx
      exact fun hgt => String.lt_irrefl _ (String.lt_trans hgt hlt)
  rw [List.filter_append, hfront, hback, List.nil_append]

theorem ids_ascending (c : Collection) (f : Filter) :
    ((c.filtered f).map Record.id).Pairwise (· < ·) := by
  rw [List.pairwise_map]
  refine List.Pairwise.filter _ ?_
  rw [Catalog.values, List.pairwise_map]
  refine List.Pairwise.imp_of_mem ?_ c.records.ascending
  intro a b ha hb hlt
  rwa [c.keyed a ha, c.keyed b hb]

/-- The identifiers from `start` on that a filter lets pass. -/
def idsFrom (c : Collection) (f : Filter) (start : Option String) : List String :=
  ((c.filtered f).map Record.id).filter fun id => start.all (· ≤ id)

theorem idsFrom_none (c : Collection) (f : Filter) :
    c.idsFrom f none = (c.filtered f).map Record.id :=
  List.filter_eq_self.2 fun _ _ => rfl

theorem page_eq (c : Collection) (f : Filter) (size : Nat) (start : Option String) :
    c.page f size start =
      ((c.idsFrom f start).take size, ((c.idsFrom f start).drop size).head?) := rfl

/-- The identifiers from the start of the next page on are those that a page has left over. -/
theorem idsFrom_next {start : Option String} {size : Nat} {id : String} {after : List String}
    (h : (c.idsFrom f start).drop size = id :: after) : c.idsFrom f (some id) = id :: after := by
  have hsplit : (c.idsFrom f start).take size ++ id :: after = c.idsFrom f start := by
    rw [← h, List.take_append_drop]
  have hascending : ((c.idsFrom f start).take size ++ id :: after).Pairwise (· < ·) := by
    rw [hsplit]
    exact (c.ids_ascending f).filter _
  have hstart : start.all (· ≤ id) = true := by
    have hid : id ∈ c.idsFrom f start := by
      rw [← hsplit]
      exact List.mem_append_right _ List.mem_cons_self
    exact (List.mem_filter.1 hid).2
  -- what is not below the start of the next page is not below that of this one
  have hnarrow : c.idsFrom f (some id) =
      (c.idsFrom f start).filter fun x => (some id).all (· ≤ x) := by
    rw [idsFrom, idsFrom, List.filter_filter]
    refine List.filter_congr fun x _ => ?_
    cases hle : (some id).all (· ≤ x) with
    | false => rfl
    | true =>
      cases start with
      | none => rfl
      | some first =>
        simp only [Option.all_some, decide_eq_true_eq] at hle hstart
        simp [String.le_trans hstart hle]
  rw [hnarrow, ← hsplit]
  exact filter_ge_of_split hascending

/-- The pages that a search goes through from `start` on: each page is asked for where the one before
it says, and the last one says no further place. -/
inductive Paged (c : Collection) (f : Filter) (size : Nat) :
    Option String → List (List String) → Prop
  | last {start : Option String} {ids : List String} (hpage : c.page f size start = (ids, none)) :
      Paged c f size start [ids]
  | next {start : Option String} {ids : List String} {id : String} {rest : List (List String)}
      (hpage : c.page f size start = (ids, some id)) (hrest : Paged c f size (some id) rest) :
      Paged c f size start (ids :: rest)

theorem page_of_nil {start : Option String} {size : Nat}
    (h : (c.idsFrom f start).drop size = []) : c.page f size start = (c.idsFrom f start, none) := by
  rw [page_eq, h, List.take_of_length_le (List.drop_eq_nil_iff.1 h)]
  rfl

theorem page_of_cons {start : Option String} {size : Nat} {id : String} {after : List String}
    (h : (c.idsFrom f start).drop size = id :: after) :
    c.page f size start = ((c.idsFrom f start).take size, some id) := by
  rw [page_eq, h]
  rfl

/-- The pages hold, one after the other, the identifiers from the start on. -/
theorem Paged.flatten_eq {start : Option String} {size : Nat} {pages : List (List String)}
    (h : c.Paged f size start pages) : pages.flatten = c.idsFrom f start := by
  induction h with
  | @last start ids hpage =>
    cases hdrop : (c.idsFrom f start).drop size with
    | nil =>
      rw [page_of_nil hdrop] at hpage
      cases hpage
      simp
    | cons id after =>
      rw [page_of_cons hdrop] at hpage
      cases hpage
  | @next start ids id rest hpage _ ih =>
    cases hdrop : (c.idsFrom f start).drop size with
    | nil =>
      rw [page_of_nil hdrop] at hpage
      cases hpage
    | cons first after =>
      rw [page_of_cons hdrop] at hpage
      cases hpage
      rw [List.flatten_cons, ih, idsFrom_next hdrop, ← hdrop, List.take_append_drop]

/-- A search ends: every page but the last takes `size` identifiers away from those that are left. -/
theorem exists_paged (c : Collection) (f : Filter) {size : Nat} (hsize : 0 < size)
    (start : Option String) :
    ∃ pages, c.Paged f size start pages ∧
      pages.length ≤ (c.idsFrom f start).length / size + 1 := by
  induction hlength : (c.idsFrom f start).length using Nat.strongRecOn generalizing start with
  | ind n ih =>
    cases hdrop : (c.idsFrom f start).drop size with
    | nil => exact ⟨_, .last (page_of_nil hdrop), Nat.le_add_left 1 _⟩
    | cons id after =>
      have hnext : (c.idsFrom f (some id)).length = n - size := by
        rw [idsFrom_next hdrop, ← hdrop, List.length_drop, hlength]
      have hmore : size < n := by
        have := congrArg List.length hdrop
        rw [List.length_drop, List.length_cons] at this
        omega
      obtain ⟨rest, hrest, hbound⟩ := ih (n - size) (by omega) (some id) hnext
      refine ⟨_, .next (page_of_cons hdrop) hrest, ?_⟩
      have hquotient : n / size = (n - size) / size + 1 := Nat.div_eq_sub_div hsize (Nat.le_of_lt hmore)
      rw [List.length_cons, hquotient]
      exact Nat.succ_le_succ hbound

/-- The search goes through its pages, if it may go through as many as there are. -/
theorem Paged.pages_eq {start : Option String} {size count : Nat} {pages : List (List String)}
    (h : c.Paged f size start pages) (hcount : pages.length ≤ count) :
    c.pages f size count start = pages.flatten := by
  induction h generalizing count with
  | last hpage =>
    cases count with
    | zero => exact absurd hcount (Nat.not_succ_le_zero _)
    | succ count => simp [Collection.pages, hpage]
  | next hpage _ ih =>
    cases count with
    | zero => exact absurd hcount (Nat.not_succ_le_zero _)
    | succ count =>
      rw [Collection.pages, hpage, List.flatten_cons, ← ih (Nat.le_of_succ_le_succ hcount)]

theorem pageSize_pos : 0 < pageSize := by decide

/-- The search page by page gives the identifiers of the records that the filter lets pass. -/
theorem find_eq (c : Collection) (f : Filter) : c.find f = (c.filtered f).map Record.id := by
  obtain ⟨pages, hpages, hbound⟩ := c.exists_paged f pageSize_pos none
  have hfiltered : (c.filtered f).length ≤ c.records.values.length := List.length_filter_le ..
  rw [Catalog.values, List.length_map] at hfiltered
  rw [idsFrom_none, List.length_map] at hbound
  have hcount : pages.length ≤ c.records.entries.length + 1 := by
    have := Nat.div_le_self (c.filtered f).length pageSize
    omega
  rw [find, hpages.pages_eq hcount, hpages.flatten_eq, idsFrom_none]

end Collection

end CodeIndex.Store
