import CodeIndex.Index.Reconcile
import CodeIndex.Json.Writer
import CodeIndex.Numeric.Fixed

/-! What commands print: hits, reports and failures. -/

namespace CodeIndex.CommandLine

open Index (FileReport TreeReport)
open Json (Value)
open Store (Hit)

def scorePlaces : Nat := 4

/-- A hit as a line: its score, and where the fragment stands or else its identifier. -/
def hitLine (h : Hit) : String :=
  let place := match h.payload with
    | some p => s!"{p.metadata.filePath}:{p.metadata.startLine}-{p.metadata.endLine}"
    | none => h.id
  Numeric.fixedText scorePlaces h.score.toFloat ++ "  " ++ place

/-- A score as a number; one that is not finite has no number. -/
def scoreJson (score : Float32) : Value :=
  if score.isFinite then .number (.double score.toFloat) else .null

def hitJson (h : Hit) : Value :=
  .object [
    ("id", .string h.id),
    ("payload", match h.payload with
      | some p => p.toJson
      | none => .null),
    ("score", scoreJson h.score)]

def hitsJson (hs : List Hit) : Value := .array (hs.map hitJson)

def treeLine (r : TreeReport) : String :=
  s!"{r.filesScanned} files scanned, {r.filesIndexed} indexed, {r.fragments} fragments, "
    ++ s!"{r.removed} removed in {r.duration} ms"

def fileLine (path : String) (r : FileReport) : String :=
  if r.skippedEmpty then s!"{path} is empty, existing records kept"
  else s!"{path}: {r.fragments} fragments stored, {r.removed} removed"

/-- Why a command fails: a message, and those of its causes from the nearest to the first. -/
structure Failure where
  message : String
  causes : List String := []
  deriving DecidableEq, Repr

namespace Failure

/-- A failure of a list of messages, the outermost first. -/
def ofChain : List String → Failure
  | [] => ⟨"", []⟩
  | message :: causes => ⟨message, causes⟩

def chain (f : Failure) : List String := f.message :: f.causes

/-- A failure seen as the cause of another. -/
def within (f : Failure) (message : String) : Failure := ⟨message, f.chain⟩

/-- The lines of a text, which ends no line. -/
def lines (s : String) : List String := (Text.splitLines s.toList).map String.ofList

def blank (n : Nat) : String := String.ofList (List.replicate n ' ')

/-- A cause with a head on its first line, and the others as far to the right. -/
def causeLines (head : String) (cause : String) : List String :=
  (lines cause).zipIdx.map fun (line, i) => (if i = 0 then head else blank head.length) ++ line

/-- A number that takes five places. -/
def padded (n : Nat) : String :=
  let digits := toString n
  blank (5 - digits.length) ++ digits

/-- The causes, numbered if there are several. -/
def causeList : List String → List String
  | [] => []
  | [cause] => causeLines (blank 4) cause
  | causes => causes.zipIdx.flatMap fun (cause, i) => causeLines (padded i ++ ": ") cause

/-- A failure as it is printed. -/
def text (f : Failure) : List String :=
  lines ("Error: " ++ f.message)
    ++ (if f.causes.isEmpty then [] else ["", "Caused by:"] ++ causeList f.causes)

end Failure

end CodeIndex.CommandLine
