import CodeIndex.Chunk.Basic
import CodeIndex.Files.Path
import CodeIndex.Index.Action
import CodeIndex.JavaScript.Parser

/-! Bringing the records of files up to date.  The records of a file are replaced as a whole: its
text is cut into fragments and these are embedded before anything that is stored is touched. -/

namespace CodeIndex.Index

open Store (HybridVector Metadata Payload Record)

def extensions : List String := ["js", "mjs", "cjs", "jsx"]

def isIndexable (path : String) : Bool := (Files.extension? path).any extensions.contains

/-- What was done with one file. -/
structure FileReport where
  fragments : Nat := 0
  removed : Nat := 0
  /-- The file was empty, and nothing was touched. -/
  skippedEmpty : Bool := false
  deriving DecidableEq, Repr

/-- The latest time that a record can name. -/
def maxTime : Int := 0x7FFFFFFFFFFFFFFF

/-- The facts about a file that all its records share; times before 1970 count as 0. -/
def fileMetadata (path : String) (source : SourceFile) : Metadata where
  filePath := path
  fileName := (Files.fileName? path).getD ""
  fileExtension := (Files.extension? path).getD ""
  fileSize := .ofNat source.size
  fileLastModified := .ofInt (min (max source.modified 0) maxTime)
  startLine := 0
  endLine := 0

def fragmentText (f : Chunk.Fragment) : String := String.ofList f.content

/-- The record of a fragment, under an identifier of its own. -/
def fragmentRecord (file : Metadata) (f : Chunk.Fragment) (dense : Array Float32) (id : String) :
    Record where
  id := id
  vector := ⟨dense, .ofText (fragmentText f)⟩
  payload := ⟨fragmentText f,
    { file with startLine := .ofNat f.startLine, endLine := .ofNat f.endLine }⟩

/-- The fragments of a text that follows the grammar. -/
def fragmentsOf (o : Chunk.Options) (text : String) : Except IndexError (List Chunk.Fragment) := do
  let tree ← (JavaScript.parse text.toList).mapError .chunk
  (Chunk.chunk o text.toList tree).mapError .fault

def vectorsOf (fs : List Chunk.Fragment) : Attempt IndexError (List (Array Float32)) := do
  if fs.isEmpty then return []
  let vectors ← settle .embed (← act (.embed (fs.map fragmentText)))
  if vectors.length ≠ fs.length then
    throw (.embed (.countMismatch fs.length vectors.length))
  return vectors

/-- The records of fragments with their vectors, each under a fresh identifier. -/
def recordsOf (file : Metadata) :
    List (Chunk.Fragment × Array Float32) → Attempt IndexError (List Record)
  | [] => pure []
  | (f, dense) :: rest => do
    let id ← act .freshId
    return fragmentRecord file f dense id :: (← recordsOf file rest)

/-- Stores records in place of those of a path; the old ones are deleted before the new ones are
written. -/
def exchange (collection path : String) (records : List Record) : Attempt IndexError FileReport := do
  let stale ← call .store (.find collection (.forFile path))
  call .store (.deleteIds collection stale)
  call .store (.upsert collection records)
  return { fragments := records.length, removed := stale.length }

/-- Stores the fragments that were found in a file in place of what is stored for its path. -/
def renew (collection path : String) (file : Metadata)
    (found : Except IndexError (List Chunk.Fragment)) : Attempt IndexError FileReport := do
  let fs ← settle id found
  let vectors ← vectorsOf fs
  let records ← recordsOf file (fs.zip vectors)
  exchange collection path records

/-- Replaces what is stored for a path.  An empty file leaves its records as they are. -/
def replace (o : Chunk.Options) (collection path : String) : Attempt IndexError FileReport := do
  if !(← call .store (.contains collection)) then throw (.collectionMissing collection)
  let source ← settle .io (← act (.read path))
  if source.text.isEmpty then return { skippedEmpty := true }
  renew collection path (fileMetadata path source) (fragmentsOf o source.text)

/-- Brings the records of one file up to date, while nobody else works on it. -/
def reconcileFile (o : Chunk.Options) (collection path : String) :
    Job (Except IndexError FileReport) := do
  let lock ← Task.perform (Action.obtainLock collection path)
  Task.perform (Action.acquire lock)
  let outcome ← (replace o collection path).run
  Task.perform (Action.release lock)
  Task.perform (Action.forget lock)
  return outcome

/-- What was done with the files of a directory. -/
structure TreeReport where
  filesScanned : Nat := 0
  filesIndexed : Nat := 0
  fragments : Nat := 0
  removed : Nat := 0
  errors : List String := []
  /-- In milliseconds. -/
  duration : Nat := 0
  deriving DecidableEq, Repr

/-- The report with one more file. -/
def TreeReport.add (r : TreeReport) (path : String) : Except IndexError FileReport → TreeReport
  | .ok file =>
    { r with
      filesScanned := r.filesScanned + 1
      filesIndexed := r.filesIndexed + if 0 < file.fragments then 1 else 0
      fragments := r.fragments + file.fragments
      removed := r.removed + file.removed }
  | .error e =>
    { r with
      filesScanned := r.filesScanned + 1
      errors := r.errors ++ [s!"{path}: {e.message}"] }

/-- The fault that broke off the work on a file. -/
def faultOf {α : Type} : Except IndexError α → Option Fault
  | .error (.fault f) => some f
  | _ => none

/-- Goes on after a file whatever came of it, unless it was a fault. -/
def goOn {ε : Type} (cause : Fault → ε) (outcome : Except IndexError FileReport) : Attempt ε Unit :=
  match faultOf outcome with
  | none => pure ()
  | some f => throw (cause f)

/-- Brings files up to date one after the other; one that fails does not stop those after it. -/
def reconcileFiles (o : Chunk.Options) (collection : String) :
    List String → TreeReport → Attempt IndexError TreeReport
  | [], report => pure report
  | path :: rest, report => do
    let outcome ← ExceptT.lift (reconcileFile o collection path)
    goOn .fault outcome
    reconcileFiles o collection rest (report.add path outcome)

/-- Brings all files of a kind that is indexed below a directory up to date. -/
def reconcileTree (o : Chunk.Options) (collection root : String) :
    Attempt IndexError TreeReport := do
  let start ← act .clock
  if !(← call .store (.contains collection)) then throw (.collectionMissing collection)
  let paths ← act (.walk root)
  let report ← reconcileFiles o collection (paths.filter isIndexable) {}
  let stop ← act .clock
  return { report with duration := stop - start }

/-- Brings the files that were reported as changed up to date in the order of the reports, whatever
comes of each.  Nothing but a fault ends this early. -/
def reindex (o : Chunk.Options) (collection : String) : List String → Attempt Fault Unit
  | [] => pure ()
  | path :: rest => do
    let outcome ← ExceptT.lift (reconcileFile o collection path)
    goOn id outcome
    reindex o collection rest

end CodeIndex.Index
