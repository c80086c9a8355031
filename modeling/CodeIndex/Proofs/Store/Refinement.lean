import CodeIndex.Proofs.Store.Memory
import Mathlib.Data.List.Induction
import Mathlib.Logic.Function.Basic

/-! The store in memory as a map of maps.  A collection is the record under each identifier and the
set of its indexed fields, and the store is the collection under each name.  Each operation is a
function on such maps, and whatever is asked of the store from its beginning on, it holds what these
functions say. -/

namespace CodeIndex.Store

/-- What is asked of a store: one of its calls, or that a collection is cleared. -/
inductive Operation where
  | call (c : Call)
  | clear (collection : String)

/-- The collection that a call names. -/
def Call.target : Call → String
  | contains name => name
  | create name => name
  | createIndex name _ => name
  | delete name => name
  | upsert name _ => name
  | deleteIds name _ => name
  | find name _ => name
  | query name _ _ => name

namespace Operation

abbrev Result : Operation → Type
  | call c => c.Result
  | clear _ => Unit

def target : Operation → String
  | call c => c.target
  | clear name => name

end Operation

namespace Memory

def operate (s : Memory) : (op : Operation) → Except StoreError op.Result × Memory
  | .call c => s.perform c
  | .clear name => s.settle (s.clear name)

/-- The store after operations on one that was empty. -/
def run (denseSize : Nat) (ops : List Operation) : Memory :=
  ops.foldl (fun s op => (s.operate op).2) (empty denseSize)

end Memory

/-! ### Maps -/

/-- A collection as a map: the record under each identifier, and which fields are indexed. -/
@[ext] structure Shelf where
  record : String → Option Record
  indexed : String → Prop

namespace Shelf

def empty : Shelf := ⟨fun _ => none, fun _ => False⟩

def declare (s : Shelf) (field : String) : Shelf :=
  { s with indexed := fun other => other = field ∨ s.indexed other }

/-- Of the records with one identifier the last one is kept. -/
def put (s : Shelf) (rs : List Record) : Shelf :=
  { s with record := fun id => (rs.reverse.find? (·.id == id)).or (s.record id) }

def take (s : Shelf) (ids : List String) : Shelf :=
  { s with record := fun id => if id ∈ ids then none else s.record id }

end Shelf

/-- A store as a map: the collection under each name. -/
abbrev Holdings := String → Option Shelf

namespace Holdings

variable (h : Holdings) (denseSize : Nat)

def shelf (name : String) : Except StoreError Shelf :=
  match h name with
  | some s => .ok s
  | none => .error (.collectionNotFound name)

def set (name : String) (s : Shelf) : Holdings := Function.update h name (some s)

/-- What an operation makes of a store, or why it fails. -/
def change : Operation → Except StoreError Holdings
  | .call (.contains _) => pure h
  | .call (.create name) =>
    if (h name).isSome then throw (.backend (.collectionExists name)) else pure (h.set name .empty)
  | .call (.createIndex name field) => do pure (h.set name ((← h.shelf name).declare field))
  | .call (.delete name) => pure (Function.update h name none)
  | .call (.upsert name rs) => do
    let s ← h.shelf name
    match rs.find? (·.vector.dense.size ≠ denseSize) with
    | some r => throw (.backend (.wrongSize r.id denseSize r.vector.dense.size))
    | none => pure (h.set name (s.put rs))
  | .call (.deleteIds name ids) =>
    if ids = [] then pure h else do pure (h.set name ((← h.shelf name).take ids))
  | .call (.find name f) =>
    if f.conditions = [] then throw .emptyFilter else do
      let _ ← h.shelf name
      pure h
  | .call (.query name _ _) => do
    let _ ← h.shelf name
    pure h
  | .clear name => pure (h.set name (Shelf.empty.declare Field.filePath.key))

/-- The store after an operation; one that fails leaves it as it is. -/
def next (op : Operation) : Holdings := (h.change denseSize op).toOption.getD h

/-- The store after operations on one that was empty. -/
def run (ops : List Operation) : Holdings := ops.foldl (next · denseSize) fun _ => none

end Holdings

/-- A collection as a map. -/
def Collection.shelf (c : Collection) : Shelf := ⟨c.records.get?, (· ∈ c.indexes)⟩

/-- A store as a map. -/
def Memory.holdings (m : Memory) : Holdings := fun name =>
  (m.collections.get? name).map Collection.shelf

/-- What an operation that succeeds answers.  A query sees nothing of a collection but its map. -/
def Holdings.Answers (h : Holdings) : (op : Operation) → op.Result → Prop
  | .call (.contains name), answer => answer = (h name).isSome
  | .call (.find name f), ids => ids.Pairwise (· < ·) ∧
    ∀ id, id ∈ ids ↔ ∃ s r, h name = some s ∧ s.record id = some r ∧
      f.matches_ r.payload.metadata = true
  | .call (.query name v o), answer => ∀ c : Collection, h name = some c.shelf →
    answer = c.query v o
  | .call (.create _), _ => True
  | .call (.createIndex ..), _ => True
  | .call (.delete _), _ => True
  | .call (.upsert ..), _ => True
  | .call (.deleteIds ..), _ => True
  | .clear _, _ => True

/-! ### Collections -/

namespace Collection

variable {c d : Collection} {r : Record} {rs : List Record} {ids : List String} {id : String}

theorem shelf_empty : empty.shelf = .empty := by
  ext
  · simp [shelf, Shelf.empty, empty]
  · simp [shelf, Shelf.empty, empty]

theorem shelf_declareIndex (field : String) :
    (c.declareIndex field).shelf = c.shelf.declare field := by
  ext other
  · rfl
  · simp only [shelf, declareIndex, Shelf.declare]
    split
    · next hknown =>
      exact ⟨.inr, fun h => h.elim (fun h => h ▸ hknown) fun h => h⟩
    · exact List.mem_cons

theorem get?_insertAll :
    (c.insertAll rs).records.get? id = (rs.reverse.find? (·.id == id)).or (c.records.get? id) := by
  induction rs generalizing c with
  | nil => rfl
  | cons r rest ih =>
    rw [insertAll, List.foldl_cons, ← insertAll, ih, List.reverse_cons, List.find?_append,
      Option.or_assoc]
    congr 1
    by_cases hid : r.id = id
    · rw [← hid]
      simp [insert]
    · rw [insert, Catalog.get?_insert_of_ne (Ne.symm hid)]
      simp [hid]

theorem get?_eraseAll :
    (c.eraseAll ids).records.get? id = if id ∈ ids then none else c.records.get? id := by
  induction ids generalizing c with
  | nil => rfl
  | cons head rest ih =>
    rw [eraseAll, List.foldl_cons, ← eraseAll, ih]
    by_cases hid : id = head
    · subst hid
      simp [erase, Catalog.get?_erase_self]
    · rw [erase, Catalog.get?_erase_of_ne hid]
      simp [hid]

theorem shelf_insertAll : (c.insertAll rs).shelf = c.shelf.put rs := by
  ext1
  · exact funext fun _ => get?_insertAll
  · simp [shelf, Shelf.put]

theorem shelf_eraseAll : (c.eraseAll ids).shelf = c.shelf.take ids := by
  ext1
  · exact funext fun _ => get?_eraseAll
  · simp [shelf, Shelf.take]

theorem mem_ids_filtered {f : Filter} :
    id ∈ (c.filtered f).map Record.id ↔ ∃ s r, some c.shelf = some s ∧ s.record id = some r ∧
      f.matches_ r.payload.metadata = true := by
  simp only [List.mem_map, filtered, List.mem_filter]
  constructor
  · rintro ⟨r, ⟨hr, hmatches⟩, rfl⟩
    exact ⟨_, r, rfl, Catalog.get?_eq_some_iff.2 (mem_iff_entry.1 hr), hmatches⟩
  · rintro ⟨_, r, ⟨⟩, hr, hmatches⟩
    have hentry := Catalog.get?_eq_some_iff.1 hr
    exact ⟨r, ⟨Catalog.mem_values.2 ⟨id, hentry⟩, hmatches⟩, c.keyed _ hentry⟩

/-- A query looks at records only. -/
theorem query_congr (h : c.records = d.records) (v : HybridVector) (o : QueryOptions) :
    c.query v o = d.query v o := by
  have hhit : c.hit o = d.hit o := funext fun s => by rw [hit, hit, h]
  simp only [query, filtered, h, hhit]

theorem records_eq_of_shelf_eq (h : c.shelf = d.shelf) : c.records = d.records :=
  Catalog.ext_get? (congrFun (congrArg Shelf.record h))

end Collection

/-! ### One operation -/

namespace Memory

variable {m : Memory} {name : String} {c : Collection}

theorem holdings_set : (m.set name c).holdings = m.holdings.set name c.shelf := by
  funext other
  by_cases hname : other = name
  · subst hname
    rw [holdings, get?_set_self, Holdings.set, Function.update_self, Option.map_some]
  · rw [holdings, get?_set_of_ne hname, Holdings.set, Function.update_of_ne hname, holdings]

theorem holdings_delete : (m.delete name).holdings = Function.update m.holdings name none := by
  funext other
  by_cases hname : other = name
  · subst hname
    rw [holdings, delete, Catalog.get?_erase_self, Function.update_self, Option.map_none]
  · rw [holdings, delete, Catalog.get?_erase_of_ne hname, Function.update_of_ne hname, holdings]

theorem isSome_holdings (m : Memory) (name : String) :
    (m.holdings name).isSome = m.contains name := by
  rw [holdings, Option.isSome_map, contains, Catalog.contains]

theorem collection_error (h : m.collections.get? name = none) :
    m.collection name = .error (.collectionNotFound name) := by
  rw [collection, h]

theorem holdings_eq (h : m.collections.get? name = some c) : m.holdings name = some c.shelf := by
  rw [holdings, h, Option.map_some]

theorem shelf_holdings (h : m.collections.get? name = some c) :
    m.holdings.shelf name = .ok c.shelf := by
  rw [Holdings.shelf, holdings_eq h]

theorem shelf_holdings_none (h : m.collections.get? name = none) :
    m.holdings.shelf name = .error (.collectionNotFound name) := by
  rw [Holdings.shelf, holdings, h, Option.map_none]

theorem contains_delete (m : Memory) (name : String) : (m.delete name).contains name = false := by
  rw [contains, delete, Catalog.contains, Catalog.get?_erase_self]
  rfl

theorem set_delete (m : Memory) (name : String) (c : Collection) :
    (m.delete name).set name c = m.set name c := by
  refine ext_get? rfl fun other => ?_
  by_cases hname : other = name
  · rw [hname, get?_set_self, get?_set_self]
  · rw [get?_set_of_ne hname, get?_set_of_ne hname, delete, Catalog.get?_erase_of_ne hname]

theorem clear_eq (m : Memory) (name : String) :
    m.clear name = .ok (m.set name (Collection.empty.declareIndex Field.filePath.key)) := by
  have hgone : ∀ n : Memory, n.contains name = false →
      (do (← n.create name).createIndex name Field.filePath.key) =
        .ok (n.set name (Collection.empty.declareIndex Field.filePath.key)) := by
    intro n hn
    rw [create, hn, if_neg Bool.false_ne_true]
    simp only [bind, Except.bind, createIndex, collection_eq get?_set_self]
    exact congrArg Except.ok set_set
  unfold clear
  cases hcontains : m.contains name with
  | true =>
    rw [if_pos rfl]
    exact (hgone _ (contains_delete m name)).trans (by rw [set_delete])
  | false =>
    rw [if_neg Bool.false_ne_true]
    exact hgone m hcontains

/-- An operation does to a store what it does to the store's map: it fails in the same way, and then
leaves the store as it was, or it succeeds with the map's answer and the map's change. -/
def Simulates (m : Memory) (op : Operation) : Prop :=
  match m.holdings.change m.denseSize op with
  | .error e => m.operate op = (.error e, m)
  | .ok after => ∃ answer, (m.operate op).1 = .ok answer ∧ m.holdings.Answers op answer ∧
    (m.operate op).2.holdings = after

theorem settle_simulates (m : Memory) (found : Except StoreError Memory) :
    match found.map holdings with
    | .error e => m.settle found = (.error e, m)
    | .ok after => ∃ answer : Unit, (m.settle found).1 = .ok answer ∧ True ∧
      (m.settle found).2.holdings = after := by
  cases found with
  | error e => rfl
  | ok n => exact ⟨(), rfl, trivial, rfl⟩

theorem change_create (m : Memory) (name : String) :
    m.holdings.change m.denseSize (.call (.create name)) = (m.create name).map holdings := by
  rw [Holdings.change, create, isSome_holdings]
  cases m.contains name with
  | true => rfl
  | false => exact congrArg Except.ok (by rw [holdings_set, Collection.shelf_empty])

theorem change_createIndex (m : Memory) (name field : String) :
    m.holdings.change m.denseSize (.call (.createIndex name field)) =
      (m.createIndex name field).map holdings := by
  rw [Holdings.change, createIndex]
  cases hc : m.collections.get? name with
  | none => rw [shelf_holdings_none hc, collection_error hc]; rfl
  | some c =>
    rw [shelf_holdings hc, collection_eq hc]
    exact congrArg Except.ok (by rw [holdings_set, Collection.shelf_declareIndex])

theorem change_upsert (m : Memory) (name : String) (rs : List Record) :
    m.holdings.change m.denseSize (.call (.upsert name rs)) = (m.upsert name rs).map holdings := by
  rw [Holdings.change, upsert]
  cases hc : m.collections.get? name with
  | none => rw [shelf_holdings_none hc, collection_error hc]; rfl
  | some c =>
    rw [shelf_holdings hc, collection_eq hc]
    simp only [bind, Except.bind]
    cases rs.find? (·.vector.dense.size ≠ m.denseSize) with
    | some r => rfl
    | none => exact congrArg Except.ok (by rw [holdings_set, Collection.shelf_insertAll])

theorem change_deleteIds (m : Memory) (name : String) (ids : List String) :
    m.holdings.change m.denseSize (.call (.deleteIds name ids)) =
      (m.deleteIds name ids).map holdings := by
  rw [Holdings.change, deleteIds]
  cases ids with
  | nil => rfl
  | cons id rest =>
    rw [if_neg (List.cons_ne_nil id rest), List.isEmpty_cons, if_neg Bool.false_ne_true]
    cases hc : m.collections.get? name with
    | none => rw [shelf_holdings_none hc, collection_error hc]; rfl
    | some c =>
      rw [shelf_holdings hc, collection_eq hc]
      exact congrArg Except.ok (by rw [holdings_set, Collection.shelf_eraseAll])

theorem change_clear (m : Memory) (name : String) :
    m.holdings.change m.denseSize (.clear name) = (m.clear name).map holdings := by
  rw [clear_eq, Holdings.change]
  exact congrArg Except.ok
    (by rw [holdings_set, Collection.shelf_declareIndex, Collection.shelf_empty])

theorem simulates_find (m : Memory) (name : String) (f : Filter) :
    m.Simulates (.call (.find name f)) := by
  rw [Simulates, Holdings.change]
  by_cases hf : f.conditions = []
  · have hrequired : f.requiredConditions = .error .emptyFilter := by
      rw [Filter.requiredConditions, hf]
    rw [if_pos hf, operate, perform, find, hrequired]
    rfl
  · have hrequired := Filter.requiredConditions_eq hf
    rw [if_neg hf]
    cases hc : m.collections.get? name with
    | none =>
      rw [shelf_holdings_none hc, operate, perform, find, hrequired, collection_error hc]
      rfl
    | some c =>
      rw [shelf_holdings hc, operate, perform_find hc f _ hrequired]
      refine ⟨_, rfl, ⟨c.ids_ascending f, fun id => ?_⟩, rfl⟩
      rw [holdings_eq hc]
      exact Collection.mem_ids_filtered

theorem simulates_query (m : Memory) (name : String) (v : HybridVector) (o : QueryOptions) :
    m.Simulates (.call (.query name v o)) := by
  rw [Simulates, Holdings.change, operate, perform, query]
  cases hc : m.collections.get? name with
  | none =>
    rw [shelf_holdings_none hc, collection_error hc]
    rfl
  | some c =>
    rw [shelf_holdings hc, collection_eq hc]
    refine ⟨_, rfl, fun d hd => ?_, rfl⟩
    rw [holdings_eq hc, Option.some.injEq] at hd
    exact Collection.query_congr (Collection.records_eq_of_shelf_eq hd) v o

theorem simulates_operate (m : Memory) (op : Operation) : m.Simulates op := by
  unfold Simulates
  cases op with
  | clear name =>
    rw [change_clear]
    exact settle_simulates m (m.clear name)
  | call c =>
    cases c with
    | contains name => exact ⟨_, rfl, (isSome_holdings m name).symm, rfl⟩
    | create name =>
      rw [change_create]
      exact settle_simulates m (m.create name)
    | createIndex name field =>
      rw [change_createIndex]
      exact settle_simulates m (m.createIndex name field)
    | delete name => exact ⟨(), rfl, trivial, holdings_delete⟩
    | upsert name rs =>
      rw [change_upsert]
      exact settle_simulates m (m.upsert name rs)
    | deleteIds name ids =>
      rw [change_deleteIds]
      exact settle_simulates m (m.deleteIds name ids)
    | find name f => exact simulates_find m name f
    | query name v o => exact simulates_query m name v o

end Memory

/-! ### What an operation makes of a map -/

/-- All records of a batch are in place, the last one of each identifier, and nothing else was
changed. -/
structure Shelf.Filled (before after : Shelf) (rs : List Record) : Prop where
  last : ∀ earlier r later, rs = earlier ++ r :: later → (∀ s ∈ later, s.id ≠ r.id) →
    after.record r.id = some r
  others : ∀ id, (∀ r ∈ rs, r.id ≠ id) → after.record id = before.record id
  indexed : after.indexed = before.indexed

theorem Shelf.filled_put (s : Shelf) (rs : List Record) : s.Filled (s.put rs) rs where
  last earlier r later hrs hlater := by
    have hfound : rs.reverse.find? (·.id == r.id) = some r := by
      rw [hrs, List.reverse_append, List.reverse_cons, List.append_assoc, List.find?_append,
        List.find?_eq_none.2 (by simpa using hlater)]
      simp
    simp only [Shelf.put, hfound, Option.some_or]
  others id hid := by
    have hnone : rs.reverse.find? (·.id == id) = none :=
      List.find?_eq_none.2 (by simpa using hid)
    simp only [Shelf.put, hnone, Option.none_or]
  indexed := rfl

namespace Holdings

variable {h after : Holdings} {denseSize : Nat} {op : Operation} {name other : String}
  {s : Shelf}

/-- Every record stands under its own identifier, with a dense vector of the store's size. -/
def Stocked (denseSize : Nat) (h : Holdings) : Prop :=
  ∀ name s id r, h name = some s → s.record id = some r →
    r.id = id ∧ r.vector.dense.size = denseSize

theorem exists_of_shelf_bind {f : Shelf → Except StoreError Holdings}
    (hbind : (h.shelf name >>= f) = .ok after) : ∃ s, h name = some s ∧ f s = .ok after := by
  unfold shelf at hbind
  cases hs : h name with
  | none =>
    rw [hs] at hbind
    cases hbind
  | some s =>
    rw [hs] at hbind
    exact ⟨s, rfl, hbind⟩

/-- What an operation that succeeds may do: nothing, delete a collection, or put one in its place
whose records were there before or are well formed. -/
theorem change_cases (hchange : h.change denseSize op = .ok after) :
    after = h ∨ after = Function.update h op.target none ∨
      ∃ t, after = h.set op.target t ∧ ∀ id r, t.record id = some r →
        (∃ s, h op.target = some s ∧ s.record id = some r) ∨
          (r.id = id ∧ r.vector.dense.size = denseSize) := by
  cases op with
  | clear name =>
    cases hchange
    exact .inr (.inr ⟨_, rfl, fun _ _ hr => nomatch hr⟩)
  | call c =>
    cases c with
    | contains name =>
      cases hchange
      exact .inl rfl
    | delete name =>
      cases hchange
      exact .inr (.inl rfl)
    | create name =>
      simp only [change] at hchange
      split at hchange
      · cases hchange
      · cases hchange
        exact .inr (.inr ⟨_, rfl, fun _ _ hr => nomatch hr⟩)
    | createIndex name field =>
      obtain ⟨s, hs, ⟨⟩⟩ := exists_of_shelf_bind hchange
      exact .inr (.inr ⟨_, rfl, fun _ _ hr => .inl ⟨s, hs, hr⟩⟩)
    | upsert name rs =>
      obtain ⟨s, hs, hput⟩ := exists_of_shelf_bind hchange
      split at hput
      · cases hput
      · next hsizes =>
        cases hput
        refine .inr (.inr ⟨_, rfl, fun id r hr => ?_⟩)
        rcases Option.or_eq_some_iff.1 hr with hfound | ⟨-, hr⟩
        · have hmem := List.mem_reverse.1 (List.mem_of_find?_eq_some hfound)
          have hsize := List.find?_eq_none.1 hsizes r hmem
          exact .inr ⟨by simpa using List.find?_some hfound, by simpa using hsize⟩
        · exact .inl ⟨s, hs, hr⟩
    | deleteIds name ids =>
      simp only [change] at hchange
      split at hchange
      · cases hchange
        exact .inl rfl
      · obtain ⟨s, hs, ⟨⟩⟩ := exists_of_shelf_bind hchange
        refine .inr (.inr ⟨_, rfl, fun id r hr => .inl ⟨s, hs, ?_⟩⟩)
        simp only [Shelf.take] at hr
        split at hr
        · cases hr
        · exact hr
    | find name f =>
      simp only [change] at hchange
      split at hchange
      · cases hchange
      · obtain ⟨s, -, ⟨⟩⟩ := exists_of_shelf_bind hchange
        exact .inl rfl
    | query name v o =>
      obtain ⟨s, -, ⟨⟩⟩ := exists_of_shelf_bind hchange
      exact .inl rfl

theorem change_of_ne (hchange : h.change denseSize op = .ok after) (hother : other ≠ op.target) :
    after other = h other := by
  rcases change_cases hchange with rfl | rfl | ⟨t, rfl, -⟩
  · rfl
  · exact Function.update_of_ne hother ..
  · exact Function.update_of_ne hother ..

theorem Stocked.change (hh : h.Stocked denseSize) (hchange : h.change denseSize op = .ok after) :
    after.Stocked denseSize := by
  intro name u id r hu hr
  by_cases hname : name = op.target
  · subst hname
    rcases change_cases hchange with rfl | rfl | ⟨t, rfl, ht⟩
    · exact hh _ u id r hu hr
    · rw [Function.update_self] at hu
      cases hu
    · rw [set, Function.update_self] at hu
      cases hu
      rcases ht id r hr with ⟨s, hs, hold⟩ | hnew
      · exact hh _ s id r hs hold
      · exact hnew
  · rw [change_of_ne hchange hname] at hu
    exact hh _ u id r hu hr

theorem Stocked.next (hh : h.Stocked denseSize) (op : Operation) :
    (h.next denseSize op).Stocked denseSize := by
  unfold Holdings.next
  cases hchange : h.change denseSize op with
  | error e => exact hh
  | ok after => exact hh.change hchange

theorem stocked_run (denseSize : Nat) (ops : List Operation) :
    (run denseSize ops).Stocked denseSize :=
  List.foldlRecOn (motive := Stocked denseSize) ops _ (fun _ _ _ _ h => nomatch h)
    fun _ h op _ => h.next op

end Holdings

namespace Memory

variable {m : Memory} {op : Operation}

theorem exists_of_collection_bind {name : String} {f : Collection → Except StoreError Memory}
    {n : Memory} (hbind : (m.collection name >>= f) = .ok n) : ∃ c, f c = .ok n := by
  cases hc : m.collection name with
  | error e =>
    rw [hc] at hbind
    cases hbind
  | ok c =>
    rw [hc] at hbind
    exact ⟨c, hbind⟩

/-- What an operation may do to a store: nothing, delete a collection, or put one in its place. -/
theorem operate_cases (m : Memory) (op : Operation) :
    (m.operate op).2 = m ∨ (m.operate op).2 = m.delete op.target ∨
      ∃ c, (m.operate op).2 = m.set op.target c := by
  have hsettle : ∀ found : Except StoreError Memory,
      (∀ n, found = .ok n → n = m ∨ ∃ c, n = m.set op.target c) →
      (m.settle found).2 = m ∨ (m.settle found).2 = m.delete op.target ∨
        ∃ c, (m.settle found).2 = m.set op.target c := by
    intro found hfound
    cases found with
    | error e => exact .inl rfl
    | ok n => exact (hfound n rfl).imp_right .inr
  cases op with
  | clear name =>
    refine hsettle _ fun n hn => ?_
    rw [clear_eq] at hn
    exact .inr ⟨_, (Except.ok.inj hn).symm⟩
  | call c =>
    cases c with
    | contains name => exact .inl rfl
    | find name f => exact .inl rfl
    | query name v o => exact .inl rfl
    | delete name => exact .inr (.inl rfl)
    | create name =>
      refine hsettle _ fun n hn => ?_
      unfold create at hn
      split at hn
      · cases hn
      · exact .inr ⟨_, (Except.ok.inj hn).symm⟩
    | createIndex name field =>
      refine hsettle _ fun n hn => ?_
      obtain ⟨c, ⟨⟩⟩ := exists_of_collection_bind hn
      exact .inr ⟨_, rfl⟩
    | upsert name rs =>
      refine hsettle _ fun n hn => ?_
      obtain ⟨c, hput⟩ := exists_of_collection_bind hn
      split at hput
      · cases hput
      · exact .inr ⟨_, (Except.ok.inj hput).symm⟩
    | deleteIds name ids =>
      refine hsettle _ fun n hn => ?_
      unfold deleteIds at hn
      split at hn
      · exact .inl (Except.ok.inj hn).symm
      · obtain ⟨c, ⟨⟩⟩ := exists_of_collection_bind hn
        exact .inr ⟨_, rfl⟩

theorem denseSize_operate (m : Memory) (op : Operation) :
    (m.operate op).2.denseSize = m.denseSize := by
  rcases m.operate_cases op with h | h | ⟨c, h⟩ <;> rw [h] <;> rfl

theorem get?_operate_of_ne (m : Memory) {other : String} (hother : other ≠ op.target) :
    (m.operate op).2.collections.get? other = m.collections.get? other := by
  rcases m.operate_cases op with h | h | ⟨c, h⟩ <;> rw [h]
  · exact Catalog.get?_erase_of_ne hother
  · exact get?_set_of_ne hother

theorem operate_of_error (m : Memory) {e : StoreError} (h : (m.operate op).1 = .error e) :
    (m.operate op).2 = m := by
  have hsimulates := m.simulates_operate op
  unfold Simulates at hsimulates
  cases hchange : m.holdings.change m.denseSize op with
  | error reason =>
    rw [hchange] at hsimulates
    rw [hsimulates]
  | ok after =>
    rw [hchange] at hsimulates
    obtain ⟨answer, hanswer, -⟩ := hsimulates
    rw [hanswer] at h
    cases h

theorem holdings_operate (m : Memory) (op : Operation) :
    (m.operate op).2.holdings = m.holdings.next m.denseSize op := by
  have hsimulates := m.simulates_operate op
  unfold Simulates at hsimulates
  unfold Holdings.next
  cases hchange : m.holdings.change m.denseSize op with
  | error e =>
    rw [hchange] at hsimulates
    rw [hsimulates]
    rfl
  | ok after =>
    rw [hchange] at hsimulates
    obtain ⟨answer, -, -, hafter⟩ := hsimulates
    exact hafter

/-! ### Runs -/

theorem denseSize_run (denseSize : Nat) (ops : List Operation) :
    (run denseSize ops).denseSize = denseSize := by
  refine List.foldlRecOn (motive := fun m : Memory => m.denseSize = denseSize) ops _ rfl
    fun m hm op _ => ?_
  rw [denseSize_operate, hm]

theorem holdings_run (denseSize : Nat) (ops : List Operation) :
    (run denseSize ops).holdings = Holdings.run denseSize ops := by
  induction ops using List.reverseRecOn with
  | nil => rfl
  | append_singleton ops op ih =>
    have hstep : run denseSize (ops ++ [op]) = ((run denseSize ops).operate op).2 := by
      rw [run, List.foldl_append]
      rfl
    rw [hstep, holdings_operate, denseSize_run, ih, Holdings.run, Holdings.run, List.foldl_append]
    rfl

/-- A store is the map `h`, and whatever is asked of it next does to it what it does to the map. -/
structure Refines (m : Memory) (size : Nat) (h : Holdings) : Prop where
  denseSize : m.denseSize = size
  map : m.holdings = h
  /-- Every record stands under its own identifier, with a dense vector of the store's size. -/
  stocked : h.Stocked size
  /-- What the map makes of an operation is what the store makes of it, answers included. -/
  simulates : ∀ op, m.Simulates op
  failed : ∀ op e, (m.operate op).1 = .error e → (m.operate op).2 = m
  others : ∀ op other, other ≠ op.target →
    (m.operate op).2.collections.get? other = m.collections.get? other
  upserted : ∀ name rs s, h name = some s → (∀ r ∈ rs, r.vector.dense.size = size) →
    ∃ after t, m.operate (.call (.upsert name rs)) = (.ok (), after) ∧
      after.holdings name = some t ∧ s.Filled t rs
  refused : ∀ name rs s, h name = some s → (∃ r ∈ rs, r.vector.dense.size ≠ size) →
    ∃ r ∈ rs, r.vector.dense.size ≠ size ∧ m.operate (.call (.upsert name rs)) =
      (.error (.backend (.wrongSize r.id size r.vector.dense.size)), m)
  deleted : ∀ name ids s, h name = some s →
    ∃ after t, m.operate (.call (.deleteIds name ids)) = (.ok (), after) ∧
      after.holdings name = some t ∧ t.indexed = s.indexed ∧
      ∀ id, t.record id = if id ∈ ids then none else s.record id
  cleared : ∀ name, ∃ after t, m.operate (.clear name) = (.ok (), after) ∧
    after.holdings name = some t ∧ (∀ id, t.record id = none) ∧
    ∀ field, t.indexed field ↔ field = "metadata.filePath"

section

variable {name : String} {s : Shelf}

theorem exists_of_holdings (hs : m.holdings name = some s) :
    ∃ c, m.collections.get? name = some c ∧ c.shelf = s :=
  Option.map_eq_some_iff.1 hs

theorem operate_upsert_taken (hs : m.holdings name = some s) {rs : List Record}
    (hsizes : ∀ r ∈ rs, r.vector.dense.size = m.denseSize) :
    ∃ after t, m.operate (.call (.upsert name rs)) = (.ok (), after) ∧
      after.holdings name = some t ∧ s.Filled t rs := by
  obtain ⟨c, hc, rfl⟩ := exists_of_holdings hs
  have hnone : m.refusal rs = none := by
    rw [refusal, Option.map_eq_none_iff, List.find?_eq_none]
    exact fun r hr => by simpa using hsizes r hr
  refine ⟨_, _, by rw [operate, perform_upsert hc, hnone], holdings_eq get?_set_self, ?_⟩
  rw [Collection.shelf_insertAll]
  exact c.shelf.filled_put rs

theorem operate_upsert_refused (hs : m.holdings name = some s) {rs : List Record}
    (hsize : ∃ r ∈ rs, r.vector.dense.size ≠ m.denseSize) :
    ∃ r ∈ rs, r.vector.dense.size ≠ m.denseSize ∧ m.operate (.call (.upsert name rs)) =
      (.error (.backend (.wrongSize r.id m.denseSize r.vector.dense.size)), m) := by
  obtain ⟨c, hc, rfl⟩ := exists_of_holdings hs
  cases hfound : rs.find? (·.vector.dense.size ≠ m.denseSize) with
  | none =>
    obtain ⟨r, hr, hne⟩ := hsize
    exact absurd (decide_eq_true hne) (List.find?_eq_none.1 hfound r hr)
  | some r =>
    refine ⟨r, List.mem_of_find?_eq_some hfound, by simpa using List.find?_some hfound, ?_⟩
    rw [operate, perform_upsert hc, refusal, hfound, Option.map_some]

theorem operate_deleteIds (hs : m.holdings name = some s) (ids : List String) :
    ∃ after t, m.operate (.call (.deleteIds name ids)) = (.ok (), after) ∧
      after.holdings name = some t ∧ t.indexed = s.indexed ∧
      ∀ id, t.record id = if id ∈ ids then none else s.record id := by
  obtain ⟨c, hc, rfl⟩ := exists_of_holdings hs
  refine ⟨_, _, perform_deleteIds hc, holdings_eq get?_set_self, ?_⟩
  rw [Collection.shelf_eraseAll]
  exact ⟨rfl, fun id => rfl⟩

theorem operate_clear (m : Memory) (name : String) :
    ∃ after t, m.operate (.clear name) = (.ok (), after) ∧ after.holdings name = some t ∧
      (∀ id, t.record id = none) ∧ ∀ field, t.indexed field ↔ field = "metadata.filePath" := by
  refine ⟨_, _, by rw [operate, clear_eq, settle], holdings_eq get?_set_self, ?_⟩
  rw [Collection.shelf_declareIndex, Collection.shelf_empty]
  exact ⟨fun id => rfl, fun field => or_iff_left id⟩

end

/-- Whatever was asked of a store from its beginning on, it is the map that the operations make. -/
theorem run_refines_maps (denseSize : Nat) (ops : List Operation) :
    (run denseSize ops).Refines denseSize (Holdings.run denseSize ops) := by
  have hsize := denseSize_run denseSize ops
  have hmap := holdings_run denseSize ops
  exact {
    denseSize := hsize
    map := hmap
    stocked := Holdings.stocked_run denseSize ops
    simulates := simulates_operate _
    failed := fun op e h => operate_of_error _ h
    others := fun op other hother => get?_operate_of_ne _ hother
    upserted := fun name rs s hs hsizes =>
      operate_upsert_taken (hmap ▸ hs) (hsize.symm ▸ hsizes)
    refused := fun name rs s hs hbad => by
      have hrefused := operate_upsert_refused (hmap ▸ hs) (hsize.symm ▸ hbad)
      rwa [hsize] at hrefused
    deleted := fun name ids s hs => operate_deleteIds (hmap ▸ hs) ids
    cleared := operate_clear _ }

end Memory

end CodeIndex.Store
