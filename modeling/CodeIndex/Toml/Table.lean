import CodeIndex.Toml.Value

/-! Tables while a document is read: which of them may still be added to, and where. -/

namespace CodeIndex.Toml

/-- How a table came to be. -/
inductive Origin where
  /-- By its own header, or as the whole document. -/
  | header
  /-- As a part of the name in the header of another table. -/
  | implied
  /-- As a part of a dotted key. -/
  | dotted
  deriving DecidableEq, Repr

/-- What stands under a name: a finished value, a table, or a list of tables. -/
inductive Node where
  | value (v : Value)
  | table (origin : Origin) (entries : List (String × Node))
  | tables (done : List (List (String × Node))) (last : List (String × Node))
  deriving Inhabited

abbrev Entries := List (String × Node)

/-- Replaces what stands under a name, or puts it at the end. -/
def setEntry (name : String) (n : Node) : Entries → Entries
  | [] => [(name, n)]
  | (other, m) :: rest =>
    if other = name then (name, n) :: rest else (other, m) :: setEntry name n rest

/-- Changes the entries of the table at the end of a header's path.  Missing tables are made; of a
list of tables the last is entered. -/
def Node.within (path : List String) (change : Entries → Option Entries) (es : Entries) :
    Option Entries :=
  match path with
  | [] => change es
  | name :: path =>
    match es.lookup name with
    | none => (within path change []).map fun inner => setEntry name (.table .implied inner) es
    | some (.table origin inner) =>
      (within path change inner).map fun inner => setEntry name (.table origin inner) es
    | some (.tables done last) =>
      (within path change last).map fun last => setEntry name (.tables done last) es
    | some (.value _) => none

/-- Opens the table of a header: it must be new, or so far only implied. -/
def openTable (name : String) (es : Entries) : Option Entries :=
  match es.lookup name with
  | none => some (setEntry name (.table .header []) es)
  | some (.table .implied inner) => some (setEntry name (.table .header inner) es)
  | some _ => none

/-- Opens the next table of a list. -/
def openItem (name : String) (es : Entries) : Option Entries :=
  match es.lookup name with
  | none => some (setEntry name (.tables [] []) es)
  | some (.tables done last) => some (setEntry name (.tables (done ++ [last]) []) es)
  | some _ => none

/-- Puts a value under a dotted key.  The tables on the way are new or were made by dotted keys, and
the name is new. -/
def putValue (key : List String) (v : Value) (es : Entries) : Option Entries :=
  match key with
  | [] => none
  | [name] =>
    match es.lookup name with
    | none => some (setEntry name (.value v) es)
    | some _ => none
  | name :: key =>
    match es.lookup name with
    | none => (putValue key v []).map fun inner => setEntry name (.table .dotted inner) es
    | some (.table .dotted inner) =>
      (putValue key v inner).map fun inner => setEntry name (.table .dotted inner) es
    | some _ => none

mutual

/-- What a node amounts to when the document is read. -/
def Node.toValue : Node → Value
  | .value v => v
  | .table _ es => .table (entriesToValues es)
  | .tables done last => .array (tablesToValues done ++ [.table (entriesToValues last)])

def entriesToValues : List (String × Node) → List (String × Value)
  | [] => []
  | (name, n) :: rest => (name, n.toValue) :: entriesToValues rest

def tablesToValues : List (List (String × Node)) → List Value
  | [] => []
  | es :: rest => .table (entriesToValues es) :: tablesToValues rest

end

end CodeIndex.Toml
