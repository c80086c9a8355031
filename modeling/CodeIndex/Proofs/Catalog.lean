import CodeIndex.Catalog

/-! The laws of catalogs.  What a catalog holds is the function from names to values that `get?`
reads: two catalogs with the same entries under all names are equal, and each operation changes this
function at one name. -/

namespace CodeIndex

theorem Ascending.eq_of_name_eq {α : Type} {es : List (String × α)} (h : Ascending es)
    {d e : String × α} (hd : d ∈ es) (he : e ∈ es) (hname : d.1 = e.1) : d = e := by
  induction es with
  | nil => exact absurd hd List.not_mem_nil
  | cons head rest ih =>
    obtain ⟨hhead, hrest⟩ := List.pairwise_cons.1 h
    rcases List.mem_cons.1 hd with rfl | hdrest <;> rcases List.mem_cons.1 he with rfl | herest
    · rfl
    · exact absurd (hname ▸ hhead e herest) (String.lt_irrefl _)
    · exact absurd (hname ▸ hhead d hdrest) (String.lt_irrefl _)
    · exact ih hrest hdrest herest

theorem Ascending.nodup {α : Type} {es : List (String × α)} (h : Ascending es) : es.Nodup := by
  refine List.Pairwise.imp ?_ h
  rintro d e hlt rfl
  exact String.lt_irrefl _ hlt

theorem Ascending.mem_insertEntry {α : Type} {es : List (String × α)} (h : Ascending es)
    {name : String} {a : α} {e : String × α} :
    e ∈ CodeIndex.insertEntry name a es ↔ e = (name, a) ∨ (e ∈ es ∧ e.1 ≠ name) := by
  induction es with
  | nil => simp [CodeIndex.insertEntry]
  | cons head rest ih =>
    obtain ⟨hhead, hrest⟩ := List.pairwise_cons.1 h
    simp only [CodeIndex.insertEntry]
    split
    · next hlt =>
      have hne : ∀ d ∈ head :: rest, d.1 ≠ name := by
        rintro d hd rfl
        rcases List.mem_cons.1 hd with rfl | hd
        · exact String.lt_irrefl _ hlt
        · exact String.lt_irrefl _ (String.lt_trans hlt (hhead d hd))
      rw [List.mem_cons]
      exact or_congr_right ⟨fun he => ⟨he, hne e he⟩, And.left⟩
    · split
      · next heq =>
        subst heq
        have hne : ∀ d ∈ rest, d.1 ≠ head.1 := fun d hd hsame =>
          String.lt_irrefl _ (hsame ▸ hhead d hd)
        simp only [List.mem_cons]
        refine or_congr_right ⟨fun he => ⟨.inr he, hne e he⟩, ?_⟩
        rintro ⟨rfl | he, hsame⟩
        · exact absurd rfl hsame
        · exact he
      · next hne =>
        simp only [List.mem_cons, ih hrest]
        constructor
        · rintro (rfl | rfl | ⟨he, hname⟩)
          · exact .inr ⟨.inl rfl, Ne.symm hne⟩
          · exact .inl rfl
          · exact .inr ⟨.inr he, hname⟩
        · rintro (rfl | ⟨rfl | he, hname⟩)
          · exact .inr (.inl rfl)
          · exact .inl rfl
          · exact .inr (.inr ⟨he, hname⟩)

namespace Catalog

variable {α : Type} {c d : Catalog α} {name other : String} {a : α}

theorem get?_eq_some_iff : c.get? name = some a ↔ (name, a) ∈ c.entries := by
  rw [get?, List.lookup_eq_some_iff]
  constructor
  · rintro ⟨before, after, hsplit, -⟩
    simp [hsplit]
  · intro hmem
    obtain ⟨before, after, hsplit⟩ := List.append_of_mem hmem
    refine ⟨before, after, hsplit, fun e he => ?_⟩
    have hlt : e.1 < name := by
      have := c.ascending
      rw [hsplit] at this
      exact (List.pairwise_append.1 this).2.2 e he (name, a) List.mem_cons_self
    exact bne_iff_ne.2 fun hsame => String.lt_irrefl _ (hsame ▸ hlt)

theorem contains_eq_true_iff : c.contains name = true ↔ ∃ a, c.get? name = some a := by
  rw [contains, Option.isSome_iff_exists]

theorem ext_entries (h : c.entries = d.entries) : c = d := by
  cases c
  cases d
  subst h
  rfl

/-- Two catalogs with the same entries stand in the same order. -/
theorem ext_mem (h : ∀ e, e ∈ c.entries ↔ e ∈ d.entries) : c = d := by
  apply ext_entries
  refine List.Perm.eq_of_pairwise ?_ c.ascending d.ascending
    ((List.perm_ext_iff_of_nodup c.ascending.nodup d.ascending.nodup).2 h)
  intro x y _ _ hxy hyx
  exact absurd (String.lt_trans hxy hyx) (String.lt_irrefl _)

@[ext] theorem ext_get? (h : ∀ name, c.get? name = d.get? name) : c = d := by
  refine ext_mem fun e => ?_
  obtain ⟨name, a⟩ := e
  rw [← get?_eq_some_iff, ← get?_eq_some_iff, h name]

@[simp] theorem get?_empty : (empty : Catalog α).get? name = none := rfl

theorem mem_entries_insert {e : String × α} :
    e ∈ (c.insert name a).entries ↔ e = (name, a) ∨ (e ∈ c.entries ∧ e.1 ≠ name) :=
  c.ascending.mem_insertEntry

theorem mem_entries_erase {e : String × α} :
    e ∈ (c.erase name).entries ↔ e ∈ c.entries ∧ e.1 ≠ name := by
  simp [erase]

@[simp] theorem get?_insert_self : (c.insert name a).get? name = some a :=
  get?_eq_some_iff.2 (mem_entries_insert.2 (.inl rfl))

theorem get?_insert_of_ne (h : other ≠ name) : (c.insert name a).get? other = c.get? other := by
  refine Option.ext fun b => ?_
  rw [get?_eq_some_iff, get?_eq_some_iff, mem_entries_insert]
  simp [h]

theorem get?_erase_self : (c.erase name).get? name = none := by
  refine Option.eq_none_iff_forall_ne_some.2 fun a ha => ?_
  exact (mem_entries_erase.1 (get?_eq_some_iff.1 ha)).2 rfl

theorem get?_erase_of_ne (h : other ≠ name) : (c.erase name).get? other = c.get? other := by
  refine Option.ext fun b => ?_
  rw [get?_eq_some_iff, get?_eq_some_iff, mem_entries_erase]
  exact and_iff_left h

theorem insert_of_get?_eq (h : c.get? name = some a) : c.insert name a = c := by
  refine ext_get? fun other => ?_
  by_cases hname : other = name
  · rw [hname, get?_insert_self, h]
  · exact get?_insert_of_ne hname

theorem insert_insert {b : α} : (c.insert name a).insert name b = c.insert name b := by
  refine ext_get? fun other => ?_
  by_cases hname : other = name
  · rw [hname, get?_insert_self, get?_insert_self]
  · rw [get?_insert_of_ne hname, get?_insert_of_ne hname, get?_insert_of_ne hname]

/-- A value stands under only one place of a name. -/
theorem values_nodup_of_injOn (h : ∀ d ∈ c.entries, ∀ e ∈ c.entries, d.2 = e.2 → d.1 = e.1) :
    c.values.Nodup := by
  rw [values, List.nodup_iff_pairwise_ne, List.pairwise_map]
  refine List.Pairwise.imp_of_mem ?_ c.ascending
  intro d e hd he hlt hsame
  exact String.lt_irrefl _ (h d hd e he hsame ▸ hlt)

theorem mem_values : a ∈ c.values ↔ ∃ name, (name, a) ∈ c.entries := by
  simp [values]

end Catalog

end CodeIndex
