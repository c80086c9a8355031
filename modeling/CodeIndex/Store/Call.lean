import CodeIndex.Store.Memory

/-! The calls that a store answers, and the answers of the store in memory. -/

namespace CodeIndex.Store

inductive Call where
  | contains (collection : String)
  | create (collection : String)
  | createIndex (collection field : String)
  | delete (collection : String)
  | upsert (collection : String) (records : List Record)
  | deleteIds (collection : String) (ids : List String)
  | find (collection : String) (filter : Filter)
  | query (collection : String) (vector : HybridVector) (options : QueryOptions)

namespace Call

/-- What a call gives when it does not fail.  A query may break off. -/
abbrev Result : Call → Type
  | contains _ => Bool
  | find .. => List String
  | query .. => Except Fault (List Hit)
  | _ => Unit

abbrev Answer (c : Call) : Type := Except StoreError c.Result

end Call

namespace Memory

/-- The store after a change; after one that fails, the store as it was. -/
def settle (s : Memory) : Except StoreError Memory → Except StoreError Unit × Memory
  | .ok after => (.ok (), after)
  | .error e => (.error e, s)

def perform (s : Memory) : (c : Call) → c.Answer × Memory
  | .contains collection => (.ok (s.contains collection), s)
  | .create collection => s.settle (s.create collection)
  | .createIndex collection field => s.settle (s.createIndex collection field)
  | .delete collection => (.ok (), s.delete collection)
  | .upsert collection records => s.settle (s.upsert collection records)
  | .deleteIds collection ids => s.settle (s.deleteIds collection ids)
  | .find collection filter => (s.find collection filter, s)
  | .query collection vector options => (s.query collection vector options, s)

end Memory

end CodeIndex.Store
