/-! Catalogs: values under distinct names, in ascending order of the names' code points. -/

namespace CodeIndex

/-- Puts a value under a name, in place of the one that stood there. -/
def insertEntry {α : Type} (name : String) (a : α) : List (String × α) → List (String × α)
  | [] => [(name, a)]
  | e :: rest =>
    if name < e.1 then (name, a) :: e :: rest
    else if name = e.1 then (name, a) :: rest
    else e :: insertEntry name a rest

theorem mem_of_mem_insertEntry {α : Type} {name : String} {a : α} {es : List (String × α)}
    {e : String × α} (h : e ∈ insertEntry name a es) : e = (name, a) ∨ e ∈ es := by
  induction es with
  | nil => simpa [insertEntry] using h
  | cons head rest ih =>
    simp only [insertEntry] at h
    split at h
    · simpa using h
    · split at h
      · rcases List.mem_cons.1 h with h | h
        · exact .inl h
        · exact .inr (List.mem_cons_of_mem _ h)
      · rcases List.mem_cons.1 h with h | h
        · exact .inr (h ▸ List.mem_cons_self)
        · exact (ih h).imp_right (List.mem_cons_of_mem _)

/-- The entries stand in ascending order of their names. -/
def Ascending {α : Type} (es : List (String × α)) : Prop := es.Pairwise fun a b => a.1 < b.1

theorem Ascending.insertEntry {α : Type} {es : List (String × α)} (h : Ascending es)
    (name : String) (a : α) : Ascending (insertEntry name a es) := by
  induction es with
  | nil => simp [CodeIndex.insertEntry, Ascending]
  | cons head rest ih =>
    have hhead := List.pairwise_cons.1 h
    simp only [CodeIndex.insertEntry]
    split
    · next hlt =>
      refine List.pairwise_cons.2 ⟨fun e he => ?_, h⟩
      rcases List.mem_cons.1 he with rfl | he
      · exact hlt
      · exact String.lt_trans hlt (hhead.1 e he)
    · next hnlt =>
      split
      · next heq =>
        exact List.pairwise_cons.2 ⟨fun e he => by simpa [heq] using hhead.1 e he, hhead.2⟩
      · next hne =>
        refine List.pairwise_cons.2 ⟨fun e he => ?_, ih hhead.2⟩
        rcases mem_of_mem_insertEntry he with rfl | he
        · have := String.not_lt.1 hnlt
          grind
        · exact hhead.1 e he

/-- Values under distinct names, in ascending order of the names. -/
structure Catalog (α : Type) where
  entries : List (String × α)
  ascending : Ascending entries

namespace Catalog

variable {α : Type}

def empty : Catalog α := ⟨[], List.Pairwise.nil⟩

instance : Inhabited (Catalog α) := ⟨empty⟩

def get? (c : Catalog α) (name : String) : Option α := c.entries.lookup name

def contains (c : Catalog α) (name : String) : Bool := (c.get? name).isSome

def values (c : Catalog α) : List α := c.entries.map Prod.snd

def names (c : Catalog α) : List String := c.entries.map Prod.fst

/-- Puts a value under a name, in place of the one that stood there. -/
def insert (c : Catalog α) (name : String) (a : α) : Catalog α :=
  ⟨insertEntry name a c.entries, c.ascending.insertEntry name a⟩

def erase (c : Catalog α) (name : String) : Catalog α :=
  ⟨c.entries.filter (·.1 ≠ name), c.ascending.filter _⟩

/-- The values of a list under their names; of several under one name, the last. -/
def ofList (es : List (String × α)) : Catalog α := es.foldl (fun c e => c.insert e.1 e.2) empty

end Catalog

end CodeIndex
